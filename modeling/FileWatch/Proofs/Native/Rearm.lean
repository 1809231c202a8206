import FileWatch.Proofs.Native.Lifecycle

/-! # Rearm — what detection cycles do to the queue and to a pending rearm

A detection cycle opens a handle again on the root `reopened?`, or on none. What it adds to the
queue is this root (`toList_rearmIfPending`), and a pending rearm ends with it and not before
(`pending_rearmIfPending`). Polls are detection cycles that each take one notification, so both
laws hold of any number of `polls`, and of a drain, which is polls until one returns nothing
(`drain_eq_polls`).
-/

namespace FileWatch

namespace NativeWatch

variable (p : NativePolicy)

/-- The root on which the next detection cycle opens the handle again, if it does. -/
def reopened? (w : NativeWatch) (world : World) : Option Path :=
  if w.rearmPending && world.opensHandles then
    w.request.bind fun r => (p.validate world.disk r).toOption
  else none

/-- What polls return and where they lead, so many of them. -/
def polls : Nat → NativeWatch → World → List Notification × NativeWatch × World
  | 0, w, world => ([], w, world)
  | n + 1, w, world =>
    let (first, w, world) := w.poll p world
    let (rest, after) := polls n w world
    (first.toList ++ rest, after)

/-- The roots on which polls open the handle again, so many of them. -/
def reopenedByPolls : Nat → NativeWatch → World → List Path
  | 0, _, _ => []
  | n + 1, w, world =>
    (w.reopened? p world).toList
      ++ reopenedByPolls n (w.poll p world).2.1 (w.poll p world).2.2

/-- How many polls a drain makes: the last of them returns nothing. -/
def drainPolls (w : NativeWatch) (world : World) : Nat :=
  ((Backend.native p w).drain world).1.length + 1

variable {p} {w : NativeWatch} {world : World} {r : WatchRequest} {root : Path}

/-! ### One detection cycle -/

theorem reopened?_of_settled (hpending : w.rearmPending = false) : w.reopened? p world = none := by
  simp [reopened?, hpending]

theorem reopened?_of_unrequested (hr : w.request = none) : w.reopened? p world = none := by
  simp [reopened?, hr]

theorem reopened?_of_invalid {e : WatchError} (hr : w.request = some r)
    (hvalid : p.validate world.disk r = .error e) : w.reopened? p world = none := by
  simp [reopened?, hr, hvalid, Except.toOption]

theorem reopened?_of_valid (hpending : w.rearmPending = true) (hr : w.request = some r)
    (hvalid : p.validate world.disk r = .ok root) :
    w.reopened? p world = if world.opensHandles = true then some root else none := by
  simp [reopened?, hpending, hr, hvalid, Except.toOption]

theorem rearmIfPending_of_opens (hpending : w.rearmPending = true) (hr : w.request = some r)
    (hvalid : p.validate world.disk r = .ok root) (hopens : world.opensHandles = true) :
    rearmIfPending p w world =
      ({ w.opened p r root with rearmPending := false, queue := w.queue.push ⟨.added, root⟩ },
        ((w.released world).note .opened).note (.registered root r.options.recursive)) := by
  rw [rearmIfPending_of_valid hpending hr hvalid,
    attempt_of_opens (by rwa [disk_released]) (by rwa [opensHandles_released])]

theorem rearmIfPending_of_not_opens (hpending : w.rearmPending = true) (hr : w.request = some r)
    (hvalid : p.validate world.disk r = .ok root) (hopens : world.opensHandles = false) :
    ∃ e, rearmIfPending p w world =
      (w.closed,
        ((w.released world).acquire root r.options.recursive).2.note (.refused (.native e))) := by
  rw [← disk_released w world] at hvalid
  rw [← opensHandles_released w world] at hopens
  obtain ⟨e, he⟩ := attempt_of_not_opens hvalid hopens
  rw [disk_released] at hvalid
  refine ⟨e, ?_⟩
  rw [rearmIfPending_of_valid hpending hr hvalid, he]

/-- A detection cycle settles a pending rearm and queues the root, or leaves both as they are. A
rearm without a request to serve is dropped. -/
theorem rearmIfPending_outcome (w : NativeWatch) (world : World) :
    (∃ root, w.reopened? p world = some root ∧ w.rearmPending = true
        ∧ (rearmIfPending p w world).1.rearmPending = false
        ∧ (rearmIfPending p w world).1.queue = w.queue.push ⟨.added, root⟩)
      ∨ w.reopened? p world = none
        ∧ (w.request.isSome = true → (rearmIfPending p w world).1.rearmPending = w.rearmPending)
        ∧ (rearmIfPending p w world).1.queue = w.queue := by
  cases hpending : w.rearmPending with
  | false =>
    right
    rw [rearmIfPending_of_settled world hpending]
    exact ⟨reopened?_of_settled hpending, fun _ => hpending, rfl⟩
  | true =>
    cases hr : w.request with
    | none =>
      right
      rw [rearmIfPending_of_unrequested world hpending hr]
      exact ⟨reopened?_of_unrequested hr, nofun, rfl⟩
    | some r =>
      cases hvalid : p.validate world.disk r with
      | error e =>
        right
        rw [rearmIfPending_of_invalid hpending hr hvalid]
        exact ⟨reopened?_of_invalid hr hvalid, fun _ => hpending, rfl⟩
      | ok root =>
        have hreopened := reopened?_of_valid hpending hr hvalid
        cases hopens : world.opensHandles with
        | true =>
          left
          rw [rearmIfPending_of_opens hpending hr hvalid hopens]
          rw [if_pos hopens] at hreopened
          exact ⟨root, hreopened, rfl, rfl, rfl⟩
        | false =>
          right
          obtain ⟨e, he⟩ := rearmIfPending_of_not_opens hpending hr hvalid hopens
          rw [he]
          rw [hopens, if_neg Bool.false_ne_true] at hreopened
          exact ⟨hreopened, fun _ => hpending, rfl⟩

/-- A detection cycle queues the root on which it opens the handle again, and nothing else. -/
theorem toList_rearmIfPending (w : NativeWatch) (world : World) :
    (rearmIfPending p w world).1.queue.toList =
      w.queue.toList ++ (w.reopened? p world).toList.map (⟨.added, ·⟩) := by
  rcases rearmIfPending_outcome (p := p) w world with
    ⟨root, hreopened, -, -, hqueue⟩ | ⟨hreopened, -, hqueue⟩
  · rw [hqueue, hreopened]
    rfl
  · rw [hqueue, hreopened]
    exact (List.append_nil _).symm

/-- A detection cycle ends a pending rearm when it opens the handle again, and only then. -/
theorem Lawful.pending_rearmIfPending (h : Lawful p w world) :
    (w.reopened? p world).toList.length
        + (NativeWatch.rearmIfPending p w world).1.rearmPending.toNat =
      w.rearmPending.toNat := by
  rcases rearmIfPending_outcome (p := p) w world with
    ⟨root, hreopened, hpending, hsettled, -⟩ | ⟨hreopened, hkept, -⟩
  · rw [hreopened, hsettled, hpending]
    rfl
  · rw [hreopened]
    cases hpending : w.rearmPending with
    | true =>
      obtain ⟨r, hr⟩ := h.request_of_pending hpending
      rw [hkept (by rw [hr]; rfl), hpending]
      rfl
    | false =>
      rw [rearmIfPending_of_settled world hpending, hpending]
      rfl

/-! ### Calls -/

/-- Resuming a watch queues nothing and settles nothing. -/
theorem resume_keeps (w : NativeWatch) (world : World) :
    (resume p w world).1.queue = w.queue
      ∧ (resume p w world).1.rearmPending = w.rearmPending := by
  cases hl : w.listener with
  | some l =>
    rw [resume_of_listening world (by rw [hl]; rfl)]
    exact ⟨rfl, rfl⟩
  | none =>
    cases hr : w.request with
    | none => rw [resume_of_unrequested world hr]; exact ⟨rfl, rfl⟩
    | some r =>
      rw [resume_of_silent world hl hr]
      rcases attempt p world r with ⟨e | root, after⟩ <;> exact ⟨rfl, rfl⟩

theorem toList_start (w : NativeWatch) (world : World) :
    (w.start p world).1.queue.toList =
      w.queue.toList ++ (w.reopened? p world).toList.map (⟨.added, ·⟩) := by
  rw [start_eq, (resume_keeps _ _).1, toList_rearmIfPending]

theorem Lawful.pending_start (h : Lawful p w world) :
    (w.reopened? p world).toList.length + (w.start p world).1.rearmPending.toNat =
      w.rearmPending.toNat := by
  rw [start_eq, (resume_keeps _ _).2, h.pending_rearmIfPending]

/-- What a poll returns comes first in the queue, and what it queues last. -/
theorem toList_poll (w : NativeWatch) (world : World) :
    (w.poll p world).1.toList ++ (w.poll p world).2.1.queue.toList =
      w.queue.toList ++ (w.reopened? p world).toList.map (⟨.added, ·⟩) := by
  rw [← toList_rearmIfPending]
  show (rearmIfPending p w world).1.queue.toList.head?.toList
    ++ (rearmIfPending p w world).1.queue.toList.tail = _
  cases (rearmIfPending p w world).1.queue.toList with
  | nil => rfl
  | cons n ns => rfl

theorem Lawful.pending_poll (h : Lawful p w world) :
    (w.reopened? p world).toList.length + (w.poll p world).2.1.rearmPending.toNat =
      w.rearmPending.toNat := h.pending_rearmIfPending

/-! ### Polls, and the drain -/

theorem polls_succ (n : Nat) (w : NativeWatch) (world : World) :
    polls p (n + 1) w world =
      ((w.poll p world).1.toList ++ (polls p n (w.poll p world).2.1 (w.poll p world).2.2).1,
        (polls p n (w.poll p world).2.1 (w.poll p world).2.2).2) := rfl

theorem toList_polls (n : Nat) (w : NativeWatch) (world : World) :
    (polls p n w world).1 ++ (polls p n w world).2.1.queue.toList =
      w.queue.toList ++ (reopenedByPolls p n w world).map (⟨.added, ·⟩) := by
  induction n generalizing w world with
  | zero => simp [polls, reopenedByPolls]
  | succ n ih =>
    simp only [polls_succ, reopenedByPolls, List.map_append, List.append_assoc]
    rw [ih, ← List.append_assoc, toList_poll, List.append_assoc]

theorem Lawful.pending_polls (n : Nat) {w : NativeWatch} {world : World} (h : Lawful p w world) :
    (reopenedByPolls p n w world).length + (polls p n w world).2.1.rearmPending.toNat =
      w.rearmPending.toNat := by
  induction n generalizing w world with
  | zero => simp [polls, reopenedByPolls]
  | succ n ih =>
    have hfirst := h.pending_poll
    have hrest := ih h.poll
    simp only [polls_succ, reopenedByPolls, List.length_append]
    omega

theorem steps_polls (n : Nat) (w : NativeWatch) (world : World) :
    Relation.ReflTransGen (Step p) (w, world) (polls p n w world).2 := by
  induction n generalizing w world with
  | zero => exact .refl
  | succ n ih => exact .head (.poll w world) (ih _ _)

/-- Induction on the polls of a drain: to a poll that returns nothing, and along one that does not.
-/
theorem poll_induction {motive : NativeWatch → World → Prop}
    (last : ∀ w world, (w.poll p world).1 = none → motive w world)
    (further : ∀ w world n, (w.poll p world).1 = some n →
      motive (w.poll p world).2.1 (w.poll p world).2.2 → motive w world)
    (w : NativeWatch) (world : World) : motive w world := by
  -- on the weight of the backend, which a poll makes smaller when it returns something
  induction hweight : (Backend.native p w).weight using Nat.strongRecOn
    generalizing w world with
  | _ weight ih =>
    subst hweight
    cases hpoll : (w.poll p world).1 with
    | none => exact last w world hpoll
    | some n =>
      have hbackend : (Backend.native p w).poll world =
          (some n, .native p (w.poll p world).2.1, (w.poll p world).2.2) := by
        simp [Backend.poll, Prod.map, hpoll]
      exact further w world n hpoll (ih _ (Backend.weight_poll_lt hbackend) _ _ rfl)

theorem drain_of_none (h : (w.poll p world).1 = none) :
    (Backend.native p w).drain world =
      ([], .native p (w.poll p world).2.1, (w.poll p world).2.2) := by
  rw [Backend.drain]
  have hpoll : (Backend.native p w).poll world =
      (none, .native p (w.poll p world).2.1, (w.poll p world).2.2) := by
    simp [Backend.poll, Prod.map, h]
  split
  · simp_all
  · simp_all

theorem drain_of_some {n : Notification} (h : (w.poll p world).1 = some n) :
    (Backend.native p w).drain world =
      (n :: ((Backend.native p (w.poll p world).2.1).drain (w.poll p world).2.2).1,
        ((Backend.native p (w.poll p world).2.1).drain (w.poll p world).2.2).2) := by
  rw [Backend.drain]
  have hpoll : (Backend.native p w).poll world =
      (some n, .native p (w.poll p world).2.1, (w.poll p world).2.2) := by
    simp [Backend.poll, Prod.map, h]
  split
  · simp_all
  · simp_all

/-- A drain is polls, up to the first one that returns nothing. -/
theorem drain_eq_polls (w : NativeWatch) (world : World) :
    (Backend.native p w).drain world =
      (polls p (w.drainPolls p world) w world).map id fun s => (.native p s.1, s.2) := by
  unfold drainPolls
  induction w, world using poll_induction (p := p) with
  | last w world hpoll => rw [drain_of_none hpoll]; simp [polls, hpoll, Prod.map]
  | further w world n hpoll ih =>
    rw [drain_of_some hpoll]
    generalize (Backend.native p (w.poll p world).2.1).drain (w.poll p world).2.2 = rest at ih ⊢
    have hreturned := congrArg Prod.fst ih
    have hafter := congrArg Prod.snd ih
    rw [List.length_cons, polls_succ, hpoll]
    exact Prod.ext (congrArg (n :: ·) hreturned) hafter

/-! ### Polls that correspond

Two watches whose single polls correspond, as long as an invariant holds, correspond in a drain. -/

section Corresponding

variable {q : NativePolicy} {f : NativeWatch → NativeWatch} {g : World → World}
  (inv : NativeWatch → World → Prop)
  (hpoll : ∀ w world, inv w world →
    (f w).poll q (g world) = (w.poll p world).map id (Prod.map f g))
  (hinv : ∀ w world, inv w world → inv (w.poll p world).2.1 (w.poll p world).2.2)
include hpoll hinv

theorem polls_of_poll (n : Nat) {w : NativeWatch} {world : World} (h : inv w world) :
    polls q n (f w) (g world) = (polls p n w world).map id (Prod.map f g) := by
  induction n generalizing w world with
  | zero => rfl
  | succ n ih =>
    rw [polls_succ, polls_succ, hpoll w world h]
    simp only [Prod.map, id]
    rw [ih (hinv w world h)]
    rfl

theorem drainPolls_of_poll {w : NativeWatch} {world : World} (h : inv w world) :
    (f w).drainPolls q (g world) = w.drainPolls p world := by
  induction w, world using poll_induction (p := p) with
  | last w world hlast =>
    have hlast' : ((f w).poll q (g world)).1 = none := by
      rw [hpoll w world h]
      exact hlast
    rw [drainPolls, drainPolls, drain_of_none hlast, drain_of_none hlast']
  | further w world n hfurther ih =>
    have hfurther' : ((f w).poll q (g world)).1 = some n := by
      rw [hpoll w world h]
      exact hfurther
    rw [drainPolls, drainPolls, drain_of_some hfurther, drain_of_some hfurther', hpoll w world h]
    exact congrArg (· + 1) (ih (hinv w world h))

theorem drain_of_poll {w : NativeWatch} {world : World} (h : inv w world) :
    polls q ((f w).drainPolls q (g world)) (f w) (g world) =
      (polls p (w.drainPolls p world) w world).map id (Prod.map f g) := by
  rw [drainPolls_of_poll inv hpoll hinv h, polls_of_poll inv hpoll hinv _ h]

end Corresponding

end NativeWatch

end FileWatch

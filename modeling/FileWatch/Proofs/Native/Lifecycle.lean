import FileWatch.Proofs.Native.Attempt
import FileWatch.Watcher.Happening
import Mathlib.Logic.Relation

/-! # Lifecycle — what holds of a native watch between calls

A watch is either `listening` or `silent`, and `Lawful` says what goes with each: the stage, the
root, the request, the queue and the native handle. Every step of a watch keeps this
(`Lawful.step`), so it holds wherever steps lead from a watch that was never used
(`Reachable.lawful`).
-/

namespace FileWatch

/-! ### The handles of a journal -/

/-- Whether a handle is held after an entry of the journal. It is `none` once a handle was opened
beside another one, or closed while none was held. -/
def JournalEntry.hold : Option Bool → JournalEntry → Option Bool
  | some false, opened => some true
  | some true, closed => some false
  | _, opened => none
  | _, closed => none
  | held, _ => held

namespace World

/-- Whether a native handle is held, as far as the journal tells. -/
def holding? (world : World) : Option Bool := world.journal.foldl JournalEntry.hold (some false)

@[simp] theorem holding?_note (world : World) (e : JournalEntry) :
    (world.note e).holding? = JournalEntry.hold world.holding? e := by
  simp [holding?, note]

/-- What else changes in a world is not in its journal. -/
theorem holding?_meet (world : World) (h : Happening) :
    (world.meet h).holding? = world.holding? := by
  cases h <;> rfl

/-- A failed attempt to open a handle leaves none behind. -/
theorem holding?_acquire {world : World} (hheld : world.holding? = some false) (root : Path)
    (recursive : Bool) :
    (world.acquire root recursive).2.holding? = some world.opensHandles := by
  have hjournal : ∀ f g, ({ world with openFault := f, registerFault := g } : World).holding? =
      some false := fun _ _ => hheld
  unfold acquire opensHandles
  cases world.openFault with
  | some e => simp [hjournal, JournalEntry.hold]
  | none =>
    cases world.registerFault with
    | some e => simp [hjournal, JournalEntry.hold]
    | none => simp [hheld, JournalEntry.hold]

end World

/-- Whether a listener reports what a request asks for. -/
structure Listener.Serves (l : Listener) (p : NativePolicy) (r : WatchRequest) : Prop where
  events : l.events = r.events &&& p.supported
  recursive : l.scope.recursive = r.options.recursive

namespace Listener

/-- A listener drops the combined event of a rename it has heard of, and offers what it has to say
of any other event to its debouncer. -/
theorem handle_eq (l : Listener) (d : Disk) (now : Nat) (e : NativeEvent) :
    l.handle d now e =
      if (l.renames.record e).1 then ([], { l with renames := (l.renames.record e).2 })
      else
        ((l.debouncer.offerAll now (notificationsOf d l.events l.scope e)).1,
          { l with
            renames := (l.renames.record e).2
            debouncer := (l.debouncer.offerAll now (notificationsOf d l.events l.scope e)).2 }) :=
  rfl

@[simp] theorem events_handle (l : Listener) (d : Disk) (now : Nat) (e : NativeEvent) :
    (l.handle d now e).2.events = l.events := by
  rw [handle_eq]
  split <;> rfl

@[simp] theorem scope_handle (l : Listener) (d : Disk) (now : Nat) (e : NativeEvent) :
    (l.handle d now e).2.scope = l.scope := by
  rw [handle_eq]
  split <;> rfl

end Listener

namespace NativeWatch

variable {p : NativePolicy} {w : NativeWatch} {world after : World} {r : WatchRequest} {root : Path}

theorem holding?_released (h : world.holding? = some w.listener.isSome) :
    (w.released world).holding? = some false := by
  unfold released
  cases hl : w.listener.isSome with
  | true => rw [if_pos rfl, World.holding?_note, h, hl]; rfl
  | false => rw [if_neg Bool.false_ne_true, h, hl]

theorem holding?_attempt_ok (hheld : world.holding? = some false)
    (h : attempt p world r = (.ok root, after)) : after.holding? = some true := by
  obtain ⟨-, -, rfl⟩ := attempt_ok_iff.mp h
  simp [hheld, JournalEntry.hold]

theorem holding?_attempt_error {e : WatchError} (hheld : world.holding? = some false)
    (h : attempt p world r = (.error e, after)) : after.holding? = some false := by
  rcases attempt_error h with ⟨-, rfl⟩ | ⟨root, -, hopens, rfl⟩
  · exact hheld
  · rw [World.holding?_acquire hheld, hopens]

/-! ### The invariant -/

/-- What holds of a watch between calls. -/
inductive Lawful (p : NativePolicy) (w : NativeWatch) (world : World) : Prop where
  /-- A handle is open on the stored root, and its listener serves the kept request. -/
  | listening (l : Listener) (r : WatchRequest)
    (listener : w.listener = some l) (request : w.request = some r) (serves : l.Serves p r)
    (stage : w.stage = .running) (root : w.root = some l.scope.root)
    (rearms : w.rearmPending = true → p.rearms = true)
    (held : world.holding? = some true)
  /-- No handle is open. What is queued waits for a rearm. -/
  | silent (listener : w.listener = none) (stage : w.stage = .idle) (root : w.root = none)
    (request : w.rearmPending = true → w.request.isSome = true)
    (rearms : w.rearmPending = true → p.rearms = true)
    (queue : w.rearmPending = false → w.queue = Queue.empty)
    (held : world.holding? = some false)

theorem Lawful.held (h : Lawful p w world) : world.holding? = some w.listener.isSome := by
  cases h with
  | listening l r listener _ _ _ _ _ held => rw [listener]; exact held
  | silent listener _ _ _ _ _ held => rw [listener]; exact held

theorem Lawful.request_of_pending (h : Lawful p w world) (hpending : w.rearmPending = true) :
    ∃ r, w.request = some r := by
  cases h with
  | listening l r _ request => exact ⟨r, request⟩
  | silent _ _ _ request => exact Option.isSome_iff_exists.mp (request hpending)

theorem Lawful.rearms (h : Lawful p w world) (hpending : w.rearmPending = true) :
    p.rearms = true := by
  cases h with
  | listening l r _ _ _ _ _ rearms => exact rearms hpending
  | silent _ _ _ _ rearms => exact rearms hpending

/-- Of the world, only the handles in its journal matter. -/
theorem Lawful.of_holding (h : Lawful p w world) (hheld : after.holding? = world.holding?) :
    Lawful p w after := by
  cases h with
  | listening l r listener request serves stage root rearms held =>
    exact .listening l r listener request serves stage root rearms (hheld.trans held)
  | silent listener stage root request rearms queue held =>
    exact .silent listener stage root request rearms queue (hheld.trans held)

theorem lawful_fresh (h : world.holding? = some false) : Lawful p fresh world :=
  .silent rfl rfl rfl (fun h => nomatch h) (fun h => nomatch h) (fun _ => rfl) h

theorem lawful_opened (hr : w.request = some r) (hrearms : w.rearmPending = true → p.rearms = true)
    (hheld : world.holding? = some true) : Lawful p (w.opened p r root) world :=
  .listening (listenerFor p r root) r rfl hr ⟨rfl, rfl⟩ rfl rfl hrearms hheld

/-! ### What the steps keep -/

theorem Lawful.stop (h : Lawful p w world) : Lawful p (w.stop world).1 (w.stop world).2 := by
  rw [stop_eq]
  exact .silent rfl rfl rfl (fun h => nomatch h) (fun h => nomatch h) (fun _ => rfl)
    (holding?_released h.held)

theorem Lawful.watch (h : Lawful p w world) (r : WatchRequest) :
    Lawful p (w.watch p world r).2.1 (w.watch p world r).2.2 := by
  have hheld := holding?_released h.held
  rw [watch_eq]
  rcases hattempt : attempt p (w.released world) r with ⟨e | root, after⟩
  · refine lawful_fresh ?_
    rw [World.holding?_note, holding?_attempt_error hheld hattempt]
    rfl
  · exact lawful_opened rfl (fun h => nomatch h) (holding?_attempt_ok hheld hattempt)

theorem Lawful.rearmIfPending (h : Lawful p w world) :
    Lawful p (rearmIfPending p w world).1 (rearmIfPending p w world).2 := by
  cases hpending : w.rearmPending with
  | false => rwa [rearmIfPending_of_settled world hpending]
  | true =>
    obtain ⟨r, hr⟩ := h.request_of_pending hpending
    cases hvalid : p.validate world.disk r with
    | error e =>
      rw [rearmIfPending_of_invalid hpending hr hvalid]
      refine h.of_holding ?_
      rw [World.holding?_note, h.held]
      cases w.listener.isSome <;> rfl
    | ok root =>
      -- the old handle is closed first: whatever the attempt ends in, no second one is held
      have hheld := holding?_released h.held
      rw [rearmIfPending_of_valid hpending hr hvalid]
      rcases hattempt : attempt p (w.released world) r with ⟨e | root', after⟩
      · refine .silent rfl rfl rfl (fun _ => ?_) (fun _ => h.rearms hpending) (fun hn => ?_) ?_
        · exact Option.isSome_iff_exists.mpr ⟨r, hr⟩
        · exact absurd (hpending.symm.trans hn) Bool.noConfusion
        · rw [World.holding?_note, holding?_attempt_error hheld hattempt]
          rfl
      · exact lawful_opened (w := { w with rearmPending := false, queue := _ }) hr
          (fun h => nomatch h) (holding?_attempt_ok hheld hattempt)

theorem Lawful.resume (h : Lawful p w world) :
    Lawful p (resume p w world).1 (resume p w world).2 := by
  cases h with
  | listening l r listener request serves stage root rearms held =>
    rw [resume_of_listening world (Option.isSome_iff_exists.mpr ⟨l, listener⟩)]
    exact .listening l r listener request serves stage root rearms held
  | silent listener stage root request rearms queue held =>
    cases hr : w.request with
    | none =>
      rw [resume_of_unrequested world hr]
      exact .silent listener stage root request rearms queue held
    | some r =>
      rw [resume_of_silent world listener hr]
      rcases hattempt : attempt p world r with ⟨e | root', after⟩
      · refine .silent listener rfl root request rearms queue ?_
        rw [World.holding?_note, holding?_attempt_error held hattempt]
        rfl
      · exact lawful_opened hr rearms (holding?_attempt_ok held hattempt)

theorem Lawful.start (h : Lawful p w world) :
    Lawful p (w.start p world).1 (w.start p world).2 := h.rearmIfPending.resume

theorem Lawful.poll (h : Lawful p w world) :
    Lawful p (w.poll p world).2.1 (w.poll p world).2.2 := by
  cases h.rearmIfPending with
  | listening l r listener request serves stage root rearms held =>
    exact .listening l r listener request serves stage root rearms held
  | silent listener stage root request rearms queue held =>
    refine .silent listener stage root request rearms (fun hn => ?_) held
    show (NativeWatch.rearmIfPending p w world).1.queue.poll.2 = Queue.empty
    rw [queue hn]
    rfl

theorem live?_eq_some {l : Listener} :
    w.live? = some l ↔ w.listener = some l ∧ l.connected = true := by
  simp [live?, Option.filter_eq_some_iff]

/-- A lawful watch that hears something still has its handle, and keeps its listener's task. -/
theorem Lawful.heard (h : Lawful p w world) {l : Listener} (hl : w.listener = some l)
    (l' : Listener) (hevents : l'.events = l.events) (hscope : l'.scope = l.scope) (queue : Queue)
    (pending : Bool) (hpending : pending = true → w.rearmPending = true ∨ p.rearms = true) :
    Lawful p { w with listener := some l', queue := queue, rearmPending := pending } world := by
  cases h with
  | listening l₀ r listener request serves stage root rearms held =>
    obtain rfl : l₀ = l := Option.some.inj (listener.symm.trans hl)
    refine .listening l' r rfl request ⟨?_, ?_⟩ stage ?_ (fun h => ?_) held
    · rw [hevents, serves.events]
    · rw [hscope, serves.recursive]
    · rw [hscope]
      exact root
    · exact (hpending h).elim rearms id
  | silent listener => rw [listener] at hl; cases hl

theorem of_raised {pending rearms lost : Bool} (h : (pending || (rearms && lost)) = true) :
    pending = true ∨ rearms = true := by
  simp only [Bool.or_eq_true, Bool.and_eq_true] at h
  exact h.imp id And.left

theorem Lawful.deliver (h : Lawful p w world) (now : Nat) (e : NativeEvent) :
    Lawful p (w.deliver p world now e).2.1 (w.deliver p world now e).2.2 := by
  unfold NativeWatch.deliver
  cases hlive : w.live? with
  | none => exact h
  | some l =>
    have hl := (live?_eq_some.mp hlive).1
    have heard := h.heard hl (l.handle world.disk now e).2 (by simp) (by simp)
      (w.queue.extend (l.handle world.disk now e).1)
      (w.rearmPending || (p.rearms && invalidatesRoot l.scope e)) of_raised
    refine heard.of_holding ?_
    cases e.rescan with
    | false => rfl
    | true =>
      rw [if_pos rfl, World.holding?_note, h.held]
      cases w.listener.isSome <;> rfl

theorem Lawful.deliverError (h : Lawful p w world) (e : NativeError) :
    Lawful p (w.deliverError p world e).2.1 (w.deliverError p world e).2.2 := by
  unfold NativeWatch.deliverError
  cases hlive : w.live? with
  | none => exact h
  | some l =>
    have hl := (live?_eq_some.mp hlive).1
    have heard := h.heard hl l rfl rfl w.queue
      (w.rearmPending || (p.rearms && e.losesRoot l.scope)) of_raised
    rw [← hl] at heard
    refine heard.of_holding ?_
    rw [World.holding?_note, h.held]
    cases w.listener.isSome <;> rfl

theorem Lawful.lose (h : Lawful p w world) : Lawful p w.lose.2 world := by
  unfold NativeWatch.lose
  cases hlive : w.live? with
  | none => exact h
  | some l =>
    exact h.heard (live?_eq_some.mp hlive).1 { l with connected := false } rfl rfl w.queue
      w.rearmPending .inl

/-! ### Wherever steps lead -/

/-- One step of a watch in its world: a call, what its handle delivers, or what goes on around it.
-/
inductive Step (p : NativePolicy) : NativeWatch × World → NativeWatch × World → Prop where
  | watch (w : NativeWatch) (world : World) (r : WatchRequest) :
    Step p (w, world) (w.watch p world r).2
  | start (w : NativeWatch) (world : World) : Step p (w, world) (w.start p world)
  | stop (w : NativeWatch) (world : World) : Step p (w, world) (w.stop world)
  | poll (w : NativeWatch) (world : World) : Step p (w, world) (w.poll p world).2
  | event (w : NativeWatch) (world : World) (now : Nat) (e : NativeEvent) :
    Step p (w, world) (w.deliver p world now e).2
  | failure (w : NativeWatch) (world : World) (e : NativeError) :
    Step p (w, world) (w.deliverError p world e).2
  | lose (w : NativeWatch) (world : World) : Step p (w, world) (w.lose.2, world)
  | meet (w : NativeWatch) (world : World) (h : Happening) : Step p (w, world) (w, world.meet h)

/-- Whether steps lead from a watch that was never used, in a world where nothing was opened yet, to
a watch and its world. -/
def Reachable (p : NativePolicy) (w : NativeWatch) (world : World) : Prop :=
  ∃ before : World, before.journal = [] ∧
    Relation.ReflTransGen (Step p) (fresh, before) (w, world)

theorem Lawful.step {s s' : NativeWatch × World} (hstep : Step p s s') (h : Lawful p s.1 s.2) :
    Lawful p s'.1 s'.2 := by
  cases hstep with
  | watch w world r => exact h.watch r
  | start => exact h.start
  | stop => exact h.stop
  | poll => exact h.poll
  | event w world now e => exact h.deliver now e
  | failure w world e => exact h.deliverError e
  | lose => exact h.lose
  | meet w world happening => exact h.of_holding (World.holding?_meet world happening)

theorem Lawful.steps {s s' : NativeWatch × World} (h : Lawful p s.1 s.2)
    (hsteps : Relation.ReflTransGen (Step p) s s') : Lawful p s'.1 s'.2 := by
  induction hsteps with
  | refl => exact h
  | tail _ hstep ih => exact ih.step hstep

/-- **The invariant**: a watch is lawful wherever steps lead. -/
theorem Reachable.lawful (h : Reachable p w world) : Lawful p w world := by
  obtain ⟨before, hjournal, hsteps⟩ := h
  have hfresh : Lawful p fresh before := lawful_fresh (by simp [World.holding?, hjournal])
  exact hfresh.steps hsteps

/-- **Between calls**, a watch is idle or running. It runs exactly while it holds a listener with
the one native handle that is held at all, and exactly while it stores the root of that listener.
To run or to wait for a rearm it must have kept a request, and when it does neither nothing is
queued. -/
theorem idle_or_running_of_reachable (h : Reachable p w world) :
    (w.stage = .idle ∨ w.stage = .running)
      ∧ (w.stage = .running ↔ w.listener.isSome = true)
      ∧ (w.stage = .running ↔ w.root.isSome = true)
      ∧ w.root = w.listener.map (fun l => l.scope.root)
      ∧ world.holding? = some w.listener.isSome
      ∧ (w.stage = .running → w.request.isSome = true)
      ∧ (w.rearmPending = true → w.request.isSome = true)
      ∧ (w.stage = .idle → w.rearmPending = false → w.queue = Queue.empty)
      ∧ (p.rearms = false → w.stage = .idle → w.queue = Queue.empty) := by
  have hheld := h.lawful.held
  have hrequest : w.rearmPending = true → w.request.isSome = true := fun hpending =>
    Option.isSome_iff_exists.mpr (h.lawful.request_of_pending hpending)
  cases h.lawful with
  | listening l r listener request serves stage root rearms held =>
    simp [stage, listener, root, request, held]
  | silent listener stage root _ rearms queue held =>
    -- without rearms there is nothing that an idle watch could wait for
    have hempty : p.rearms = false → w.queue = Queue.empty := fun hp =>
      queue (Bool.eq_false_iff.mpr fun hpending => by simp [rearms hpending] at hp)
    simp_all

/-- A request for all that happens to the topmost directory. -/
def topRequest : WatchRequest := ⟨⟨[Path.slash]⟩, EventMask.all, {}⟩

/-- The report that the topmost directory went away. -/
def topRemoved : NativeEvent := ⟨.remove .any, [⟨[Path.slash]⟩], none, false⟩

/-- A watch that heard its root go away, and was started again while no handle could be opened. -/
def bereft : NativeWatch × World :=
  let (_, w, world) := watch .unix fresh { disk := {} } topRequest
  let (_, w, world) := w.deliver .unix world 0 topRemoved
  let world := (world.meet (.openFault ⟨.tooManyWatches, []⟩)).meet
    (.registerFault ⟨.tooManyWatches, []⟩)
  w.start .unix world

theorem reachable_bereft : Reachable .unix bereft.1 bereft.2 :=
  ⟨{ disk := {} }, rfl, .tail (.tail (.tail (.tail (.single (.watch _ _ topRequest))
    (.event _ _ 0 topRemoved)) (.meet _ _ (.openFault _))) (.meet _ _ (.registerFault _)))
    (.start _ _)⟩

/-- A bereft watch is idle, but it keeps its request and its notification for the rearm. -/
theorem idle_of_bereft :
    Reachable .unix bereft.1 bereft.2 ∧ bereft.1.stage = .idle ∧ bereft.1.queue.length = 1
      ∧ bereft.1.rearmPending = true ∧ bereft.1.request.isSome = true
      ∧ bereft.2.holding? = some false := by
  obtain ⟨-, -, -, -, hheld, -, hrequest, -⟩ := idle_or_running_of_reachable reachable_bereft
  have hpending : bereft.1.rearmPending = true := by decide
  refine ⟨reachable_bereft, by decide, by decide, hpending, hrequest hpending, ?_⟩
  exact hheld.trans (by decide)

end NativeWatch

end FileWatch

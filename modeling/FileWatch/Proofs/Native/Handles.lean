import FileWatch.Proofs.Native.Rearm

/-! # Handles — when a watch opens a native handle

No call but `watch` changes the request that a handle is opened for (`request_polls`,
`request_start`).
`World.handlesOpened` counts the native handles that were opened and took their path, as the journal
tells. A detection cycle opens one for each root on which it rearms (`handlesOpened_rearmIfPending`)
and resuming a watch opens one when the watch has none (`resume_cases`). So of all calls that keep
the watch, only `start` can open a handle and leave a rearm pending (`Lawful.start_cases`).
-/

namespace FileWatch

/-- Whether an entry says that a handle was opened and took its path. -/
def JournalEntry.isRegistered : JournalEntry → Bool
  | registered _ _ => true
  | _ => false

namespace World

/-- How many native handles were opened and took their path, as far as the journal tells. -/
def handlesOpened (world : World) : Nat := world.journal.countP JournalEntry.isRegistered

@[simp] theorem handlesOpened_note (world : World) (e : JournalEntry) :
    (world.note e).handlesOpened = world.handlesOpened + e.isRegistered.toNat := by
  rw [handlesOpened, note, List.countP_append, List.countP_singleton]
  cases e.isRegistered <;> rfl

theorem handlesOpened_meet (world : World) (h : Happening) :
    (world.meet h).handlesOpened = world.handlesOpened := by
  cases h <;> rfl

theorem disk_acquire (world : World) (root : Path) (recursive : Bool) :
    (world.acquire root recursive).2.disk = world.disk := by
  unfold acquire
  cases world.openFault with
  | some e => rfl
  | none => cases world.registerFault <;> rfl

theorem handlesOpened_acquire_of_not_opens {world : World} (h : world.opensHandles = false)
    (root : Path) (recursive : Bool) :
    (world.acquire root recursive).2.handlesOpened = world.handlesOpened := by
  have hjournal : ∀ f g, ({ world with openFault := f, registerFault := g } : World).handlesOpened =
      world.handlesOpened := fun _ _ => rfl
  unfold acquire
  cases hopen : world.openFault with
  | some e => simp [hjournal, JournalEntry.isRegistered]
  | none =>
    cases hregister : world.registerFault with
    | some e => simp [hjournal, JournalEntry.isRegistered]
    | none => simp [opensHandles, hopen, hregister] at h

end World

namespace NativeWatch

variable {p : NativePolicy} {w : NativeWatch} {world after : World} {r : WatchRequest} {root : Path}

/-! ### The request is kept -/

theorem request_rearmIfPending (w : NativeWatch) (world : World) :
    (rearmIfPending p w world).1.request = w.request := by
  cases hpending : w.rearmPending with
  | false => rw [rearmIfPending_of_settled world hpending]
  | true =>
    cases hr : w.request with
    | none =>
      rw [rearmIfPending_of_unrequested world hpending hr]
      exact hr
    | some r =>
      cases hvalid : p.validate world.disk r with
      | error e =>
        rw [rearmIfPending_of_invalid hpending hr hvalid]
        exact hr
      | ok root =>
        rw [rearmIfPending_of_valid hpending hr hvalid]
        rcases attempt p (w.released world) r with ⟨e | root', after⟩ <;> exact hr

theorem request_resume (w : NativeWatch) (world : World) :
    (resume p w world).1.request = w.request := by
  cases hl : w.listener with
  | some l => rw [resume_of_listening world (by rw [hl]; rfl)]
  | none =>
    cases hr : w.request with
    | none =>
      rw [resume_of_unrequested world hr]
      exact hr
    | some r =>
      rw [resume_of_silent world hl hr]
      rcases attempt p world r with ⟨e | root, after⟩ <;> exact hr

theorem request_start (w : NativeWatch) (world : World) :
    (w.start p world).1.request = w.request := by
  rw [start_eq, request_resume, request_rearmIfPending]

theorem request_poll (w : NativeWatch) (world : World) :
    (w.poll p world).2.1.request = w.request :=
  request_rearmIfPending w world

theorem request_polls (n : Nat) (w : NativeWatch) (world : World) :
    (polls p n w world).2.1.request = w.request := by
  induction n generalizing w world with
  | zero => rfl
  | succ n ih => rw [polls_succ, ih, request_poll]

/-! ### Detection cycles, and what `resume` does -/

@[simp] theorem handlesOpened_released (w : NativeWatch) (world : World) :
    (w.released world).handlesOpened = world.handlesOpened := by
  unfold released
  split
  · exact World.handlesOpened_note world .closed
  · rfl

theorem handlesOpened_attempt_ok (h : attempt p world r = (.ok root, after)) :
    after.handlesOpened = world.handlesOpened + 1 := by
  obtain ⟨-, -, rfl⟩ := attempt_ok_iff.mp h
  simp [JournalEntry.isRegistered]

/-- A detection cycle opens a handle for the root on which it rearms, and the watch listens then, or
it opens none, and the watch has at most the listener that it had. -/
theorem rearmIfPending_handles (w : NativeWatch) (world : World) :
    (∃ root, w.reopened? p world = some root ∧ world.opensHandles = true
        ∧ (rearmIfPending p w world).1.listener.isSome = true
        ∧ (rearmIfPending p w world).2.handlesOpened = world.handlesOpened + 1)
      ∨ w.reopened? p world = none
        ∧ ((rearmIfPending p w world).1.listener = w.listener
          ∨ (rearmIfPending p w world).1.listener = none)
        ∧ (rearmIfPending p w world).2.handlesOpened = world.handlesOpened
        ∧ (rearmIfPending p w world).2.disk = world.disk := by
  cases hpending : w.rearmPending with
  | false =>
    right
    rw [rearmIfPending_of_settled world hpending]
    exact ⟨reopened?_of_settled hpending, .inl rfl, rfl, rfl⟩
  | true =>
    cases hr : w.request with
    | none =>
      right
      rw [rearmIfPending_of_unrequested world hpending hr]
      exact ⟨reopened?_of_unrequested hr, .inl rfl, rfl, rfl⟩
    | some r =>
      cases hvalid : p.validate world.disk r with
      | error e =>
        right
        rw [rearmIfPending_of_invalid hpending hr hvalid]
        exact ⟨reopened?_of_invalid hr hvalid, .inl rfl, World.handlesOpened_note world _, rfl⟩
      | ok root =>
        have hreopened := reopened?_of_valid hpending hr hvalid
        cases hopens : world.opensHandles with
        | true =>
          left
          rw [if_pos hopens] at hreopened
          rw [rearmIfPending_of_opens hpending hr hvalid hopens]
          exact ⟨root, hreopened, rfl, rfl, by simp [JournalEntry.isRegistered]⟩
        | false =>
          right
          rw [hopens, if_neg Bool.false_ne_true] at hreopened
          obtain ⟨e, he⟩ := rearmIfPending_of_not_opens hpending hr hvalid hopens
          rw [← opensHandles_released w world] at hopens
          rw [he]
          refine ⟨hreopened, .inr rfl, ?_, ?_⟩
          · rw [World.handlesOpened_note, World.handlesOpened_acquire_of_not_opens hopens,
              handlesOpened_released]
            rfl
          · exact (World.disk_acquire _ _ _).trans (disk_released w world)

theorem handlesOpened_rearmIfPending (w : NativeWatch) (world : World) :
    (rearmIfPending p w world).2.handlesOpened =
      world.handlesOpened + (w.reopened? p world).toList.length := by
  rcases rearmIfPending_handles (p := p) w world with
    ⟨root, hreopened, -, -, hcount⟩ | ⟨hreopened, -, hcount, -⟩
  · rw [hcount, hreopened]
    rfl
  · rw [hcount, hreopened]
    rfl

/-- A watch that listens after a detection cycle that opened no handle did so before. -/
theorem listening_of_rearmIfPending (hreopened : w.reopened? p world = none)
    (h : (rearmIfPending p w world).1.listener.isSome = true) : w.listener.isSome = true := by
  rcases rearmIfPending_handles (p := p) w world with
    ⟨root, hsome, -⟩ | ⟨-, hsame | hclosed, -⟩
  · rw [hreopened] at hsome
    cases hsome
  · rwa [hsame] at h
  · rw [hclosed] at h
    cases h

/-- A watch that listens after it was resumed did so before, or a handle was opened for it. -/
theorem resume_cases (h : (resume p w world).1.listener.isSome = true) :
    w.listener.isSome = true ∧ resume p w world = (w, world)
      ∨ ∃ r root, w.request = some r ∧ p.validate world.disk r = .ok root
        ∧ (resume p w world).2.handlesOpened = world.handlesOpened + 1 := by
  cases hl : w.listener with
  | some l =>
    left
    exact ⟨rfl, resume_of_listening world (by rw [hl]; rfl)⟩
  | none =>
    cases hr : w.request with
    | none =>
      rw [resume_of_unrequested world hr, hl] at h
      cases h
    | some r =>
      rw [resume_of_silent world hl hr] at h ⊢
      rcases hattempt : attempt p world r with ⟨e | root, after⟩
      · rw [hattempt] at h
        replace h : w.listener.isSome = true := h
        rw [hl] at h
        cases h
      · right
        obtain ⟨hvalid, -, -⟩ := attempt_ok_iff.mp hattempt
        exact ⟨r, root, rfl, hvalid, handlesOpened_attempt_ok hattempt⟩

/-! ### Calls that keep the watch -/

/-- A rearm that is settled so many times was settled once, or it is as pending as it was. -/
theorem settled_or_kept {n : Nat} {before after : Bool} (h : n + after.toNat = before.toNat) :
    n = 1 ∧ after = false ∨ n = 0 ∧ after = before := by
  cases before <;> cases after <;> simp_all

theorem handlesOpened_polls (n : Nat) (w : NativeWatch) (world : World) :
    (polls p n w world).2.2.handlesOpened =
      world.handlesOpened + (reopenedByPolls p n w world).length := by
  induction n generalizing w world with
  | zero => rfl
  | succ n ih =>
    have hfirst : (w.poll p world).2.2.handlesOpened =
        world.handlesOpened + (w.reopened? p world).toList.length :=
      handlesOpened_rearmIfPending w world
    rw [polls_succ, ih, hfirst, reopenedByPolls, List.length_append, Nat.add_assoc]

/-- Polls that rearm on no root open no handle. -/
theorem listening_of_polls {n : Nat} (hreopened : reopenedByPolls p n w world = [])
    (h : (polls p n w world).2.1.listener.isSome = true) : w.listener.isSome = true := by
  induction n generalizing w world with
  | zero => exact h
  | succ n ih =>
    rw [reopenedByPolls, List.append_eq_nil_iff, Option.toList_eq_nil_iff] at hreopened
    have hfirst : (w.poll p world).2.1.listener.isSome = true := ih hreopened.2 h
    exact listening_of_rearmIfPending hreopened.1 hfirst

/-- What polls did, if the watch listens after them: they opened a handle and settled the rearm, or
they opened none. -/
theorem Lawful.polls_cases (h : Lawful p w world) (n : Nat)
    (hlistens : (polls p n w world).2.1.listener.isSome = true) :
    world.handlesOpened < (polls p n w world).2.2.handlesOpened
        ∧ (polls p n w world).2.1.rearmPending = false
      ∨ (polls p n w world).2.2.handlesOpened = world.handlesOpened ∧ w.listener.isSome = true
        ∧ (polls p n w world).2.1.rearmPending = w.rearmPending := by
  have hcount := handlesOpened_polls (p := p) n w world
  rcases settled_or_kept (h.pending_polls n) with ⟨hone, hpending⟩ | ⟨hzero, hpending⟩
  · exact .inl ⟨by omega, hpending⟩
  · have hreopened := List.length_eq_zero_iff.mp hzero
    exact .inr ⟨by omega, listening_of_polls hreopened hlistens, hpending⟩

/-- What a call of `start` did, if the watch listens after it: it opened a handle, and a rearm is
pending if it was before and the next handle was bound to fail; or it opened none. -/
theorem Lawful.start_cases (h : Lawful p w world)
    (hlistens : (w.start p world).1.listener.isSome = true) :
    world.handlesOpened < (w.start p world).2.handlesOpened
        ∧ (w.start p world).1.rearmPending = (w.rearmPending && !world.opensHandles)
      ∨ (w.start p world).2.handlesOpened = world.handlesOpened ∧ w.listener.isSome = true
        ∧ (w.start p world).1.rearmPending = w.rearmPending := by
  have hpending := (resume_keeps (p := p) (NativeWatch.rearmIfPending p w world).1
    (NativeWatch.rearmIfPending p w world).2).2
  have hcycle := settled_or_kept h.pending_rearmIfPending
  rw [start_eq] at hlistens ⊢
  rcases rearmIfPending_handles (p := p) w world with
    ⟨root, hreopened, hopens, hrearmed, hcount⟩ | ⟨hreopened, -, hcount, hdisk⟩
  · left
    rw [hreopened] at hcycle
    obtain ⟨-, hsettled⟩ := hcycle.resolve_right (fun hzero => nomatch hzero.1)
    rw [resume_of_listening _ hrearmed, hsettled, hopens, Bool.not_true, Bool.and_false]
    exact ⟨by rw [hcount]; exact Nat.lt_succ_self _, rfl⟩
  · rw [hreopened] at hcycle
    obtain ⟨-, hkept⟩ := hcycle.resolve_left (fun hone => nomatch hone.1)
    rcases resume_cases hlistens with ⟨hlistens, hresume⟩ | ⟨r, root, hr, hvalid, hopened⟩
    · right
      rw [hresume]
      exact ⟨hcount, listening_of_rearmIfPending hreopened hlistens, hkept⟩
    · left
      refine ⟨by omega, ?_⟩
      rw [hpending, hkept]
      -- the target was as valid for the rearm, so the handle was what failed
      rw [request_rearmIfPending] at hr
      rw [hdisk] at hvalid
      cases hw : w.rearmPending with
      | false => rfl
      | true =>
        rw [reopened?_of_valid hw hr hvalid] at hreopened
        cases hopens : world.opensHandles with
        | true =>
          rw [if_pos hopens] at hreopened
          cases hreopened
        | false => rfl

end NativeWatch

end FileWatch

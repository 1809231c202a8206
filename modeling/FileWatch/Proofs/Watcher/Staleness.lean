import FileWatch.Proofs.Watcher.Reached
import Mathlib.Data.List.DropRight

/-! # Staleness — what a pending rearm says of the present handle

While a watcher runs, its handle was opened by the latest step that opened one, and a rearm is
pending if the listener has heard since then that its root is lost (`rearm_pending_iff`). There is
one other reason: a call of `start` that could not rearm goes on to resume the watch, and when that
opens a handle, the rearm stays pending beside it. Such a handle has lost nothing
(`rearm_pending_beside_sound_handle`).
-/

namespace FileWatch

namespace NativeWatch

variable {p : NativePolicy} {w : NativeWatch} {world : World}

/-- Whether the live listener hears in a step that its root is lost. -/
def hearsLoss (w : NativeWatch) : Watcher.Step → Bool
  | .happening (.event e) => w.live?.any fun l => invalidatesRoot l.scope e
  | .happening (.failure e) => w.live?.any fun l => e.losesRoot l.scope
  | _ => false

/-- Whether a step is a call of `start` for a pending rearm, while the next handle is bound to fail.
-/
def retriesRearm (w : NativeWatch) (world : World) : Watcher.Step → Bool
  | .call .start => w.rearmPending && !world.opensHandles
  | _ => false

theorem deliver_listens (w : NativeWatch) (world : World) (now : Nat) (e : NativeEvent) :
    (w.deliver p world now e).2.2.handlesOpened = world.handlesOpened
      ∧ (w.deliver p world now e).2.1.listener.isSome = w.listener.isSome
      ∧ (w.deliver p world now e).2.1.rearmPending =
          (w.rearmPending || (p.rearms && w.hearsLoss (.happening (.event e)))) := by
  unfold deliver hearsLoss
  cases hlive : w.live? with
  | none => simp
  | some l =>
    have hl : w.listener = some l := (live?_eq_some.mp hlive).1
    refine ⟨?_, by rw [hl]; rfl, rfl⟩
    cases e.rescan with
    | false => rfl
    | true => exact World.handlesOpened_note world .overflowed

theorem deliverError_listens (w : NativeWatch) (world : World) (e : NativeError) :
    (w.deliverError p world e).2.2.handlesOpened = world.handlesOpened
      ∧ (w.deliverError p world e).2.1.listener.isSome = w.listener.isSome
      ∧ (w.deliverError p world e).2.1.rearmPending =
          (w.rearmPending || (p.rearms && w.hearsLoss (.happening (.failure e)))) := by
  unfold deliverError hearsLoss
  cases w.live? with
  | none => simp
  | some l => exact ⟨World.handlesOpened_note world (.reported e), rfl, rfl⟩

theorem lose_listens (w : NativeWatch) :
    w.lose.2.listener.isSome = w.listener.isSome ∧ w.lose.2.rearmPending = w.rearmPending := by
  unfold lose
  cases hlive : w.live? with
  | none => exact ⟨rfl, rfl⟩
  | some l =>
    have hl : w.listener = some l := (live?_eq_some.mp hlive).1
    exact ⟨by rw [hl]; rfl, rfl⟩

/-- What a step did, if the watch listens after it: it opened a handle, and a rearm is pending only
if the step retried it; or the watch has the handle that it had, and a rearm is pending if one was
or the listener has just heard that its root is lost. -/
theorem Lawful.act_cases (h : Lawful p w world) (now : Nat) (s : Watcher.Step)
    (hlistens : (w.act p world now s).2.1.listener.isSome = true) :
    world.handlesOpened < (w.act p world now s).2.2.handlesOpened
        ∧ (w.act p world now s).2.1.rearmPending = w.retriesRearm world s
      ∨ (w.act p world now s).2.2.handlesOpened = world.handlesOpened
        ∧ w.listener.isSome = true
        ∧ (w.act p world now s).2.1.rearmPending =
            (w.rearmPending || (p.rearms && w.hearsLoss s)) := by
  have hdeaf : ∀ {s}, w.hearsLoss s = false →
      (w.rearmPending || (p.rearms && w.hearsLoss s)) = w.rearmPending := by
    intro s hs
    rw [hs, Bool.and_false, Bool.or_false]
  cases s with
  | call c =>
    rw [hdeaf rfl]
    cases c with
    | watch r =>
      left
      rw [NativeWatch.act, watch_eq] at hlistens ⊢
      rcases hattempt : attempt p (w.released world) r with ⟨e | root, after⟩
      · rw [hattempt] at hlistens
        cases hlistens
      · have hopened := handlesOpened_attempt_ok hattempt
        rw [handlesOpened_released] at hopened
        refine ⟨?_, rfl⟩
        show world.handlesOpened < after.handlesOpened
        omega
    | stop => cases hlistens
    | start => exact h.start_cases hlistens
    | poll => exact h.polls_cases 1 hlistens
    | drain => exact h.polls_cases (w.drainPolls p world) hlistens
  | happening happening =>
    right
    cases happening with
    | event e =>
      obtain ⟨hopened, hsame, hpending⟩ := w.deliver_listens (p := p) world now e
      exact ⟨hopened, hsame.symm.trans hlistens, hpending⟩
    | failure e =>
      obtain ⟨hopened, hsame, hpending⟩ := w.deliverError_listens (p := p) world e
      exact ⟨hopened, hsame.symm.trans hlistens, hpending⟩
    | lose =>
      obtain ⟨hsame, hpending⟩ := w.lose_listens
      rw [hdeaf rfl]
      exact ⟨rfl, hsame.symm.trans hlistens, hpending⟩
    | edit | openFault | registerFault | nothing =>
      rw [hdeaf rfl]
      exact ⟨World.handlesOpened_meet world _, hlistens, rfl⟩

end NativeWatch

namespace Watcher

namespace Transition

/-- Whether the step opens no native handle. -/
def keepsHandle (t : Transition) : Bool := t.worldAfter.handlesOpened == t.world.handlesOpened

/-- Whether the live listener hears in the step that its root is lost. -/
def hearsLoss (t : Transition) : Bool :=
  match t.before.backend with
  | .native _ w => w.hearsLoss t.step
  | _ => false

/-- Whether the step is a call of `start` for a pending rearm, while the next handle is bound to
fail. -/
def retriesRearm (t : Transition) : Bool :=
  t.step == .call .start && t.before.backend.rearmPending && !t.world.opensHandles

section Native

variable {p : NativePolicy} {w : NativeWatch} {honored : EventMask} {t : Transition}
  (hbefore : t.before = ⟨.native p w, honored⟩)
include hbefore

theorem keepsHandle_native :
    t.keepsHandle =
      ((w.act p t.world t.now t.step).2.2.handlesOpened == t.world.handlesOpened) := by
  rw [keepsHandle, worldAfter, hbefore, step_native]

theorem hearsLoss_native : t.hearsLoss = w.hearsLoss t.step := by
  rw [hearsLoss, hbefore]

theorem retriesRearm_native : t.retriesRearm = w.retriesRearm t.world t.step := by
  rw [retriesRearm, hbefore]
  cases t.step with
  | call c => cases c <;> rfl
  | happening h => rfl

end Native

end Transition

/-- The latest transition that opened a native handle. -/
def opener? (ts : List Transition) : Option Transition :=
  (ts.rdropWhile Transition.keepsHandle).getLast?

/-- The transitions since a native handle was opened for the last time. -/
def sinceOpening (ts : List Transition) : List Transition := ts.rtakeWhile Transition.keepsHandle

/-- While a watch listens, a handle was opened for it, and what became of the rearm is told by the
step that opened it and by what the listener heard since. -/
theorem rearmPending_of_listening {p : NativePolicy} {before : World}
    (hjournal : before.journal = []) {steps : List (Nat × Step)} {w : NativeWatch}
    {honored : EventMask} {world : World}
    (hrun : ((ofBackend (.ofPolicy p)).run before steps).2 = (⟨.native p w, honored⟩, world))
    (hlistens : w.listener.isSome = true) :
    ∃ t₀, opener? ((ofBackend (.ofPolicy p)).trace before steps) = some t₀
      ∧ w.rearmPending = (t₀.retriesRearm
        || (p.rearms
          && (sinceOpening ((ofBackend (.ofPolicy p)).trace before steps)).any (·.hearsLoss))) := by
  induction steps using List.reverseRecOn generalizing w honored world with
  | nil =>
    cases hrun
    cases hlistens
  | append_singleton steps s ih =>
    obtain ⟨now, s⟩ := s
    have hreachable : Reachable p ((ofBackend (.ofPolicy p)).run before steps).2.1
        ((ofBackend (.ofPolicy p)).run before steps).2.2 := ⟨before, steps, hjournal, rfl⟩
    obtain ⟨w₀, honored₀, hprefix, hstanding⟩ := hreachable.standing
    rw [run_concat, hprefix, step_native] at hrun
    rw [trace_concat, hprefix]
    generalize hworld : ((ofBackend (.ofPolicy p)).run before steps).2.2 = world₀ at hrun hstanding ⊢
    generalize htrace : (ofBackend (.ofPolicy p)).trace before steps = ts at ih ⊢
    cases hrun
    let t : Transition := ⟨⟨.native p w₀, honored₀⟩, world₀, now, s⟩
    have hbefore : t.before = ⟨.native p w₀, honored₀⟩ := rfl
    rcases hstanding.lawful.act_cases now s hlistens with
      ⟨hopened, hpending⟩ | ⟨hsame, hlistened, hpending⟩
    · have hopens : ¬t.keepsHandle = true := by
        rw [Transition.keepsHandle_native hbefore, beq_iff_eq]
        exact Nat.ne_of_gt hopened
      refine ⟨t, ?_, ?_⟩
      · rw [opener?, List.rdropWhile_concat_neg _ _ _ hopens, List.getLast?_concat]
      · rw [sinceOpening, List.rtakeWhile_concat_neg _ _ _ hopens, List.any_nil, Bool.and_false,
          Bool.or_false, hpending, Transition.retriesRearm_native hbefore]
    · have hkeeps : t.keepsHandle = true := by
        rw [Transition.keepsHandle_native hbefore, beq_iff_eq]
        exact hsame
      obtain ⟨t₀, hopener, hearlier⟩ := ih (Prod.ext hprefix hworld) hlistened
      refine ⟨t₀, ?_, ?_⟩
      · rwa [opener?, List.rdropWhile_concat_pos _ _ _ hkeeps]
      · rw [sinceOpening, List.rtakeWhile_concat_pos _ _ _ hkeeps, List.any_append, List.any_cons,
          List.any_nil, Bool.or_false, Bool.and_or_distrib_left, ← Bool.or_assoc, ← sinceOpening,
          ← hearlier, hpending, Transition.hearsLoss_native hbefore]

/-- **What a pending rearm says of the handle.** While a watcher runs, a rearm is pending exactly if
its listener heard that its root is lost, by an event that it was removed or renamed or by a failure,
since the handle was opened; or if the handle was opened by a call of `start` that met a pending
rearm and a native handle bound to fail. -/
theorem rearm_pending_iff {before : World} (hjournal : before.journal = [])
    (steps : List (Nat × Step)) :
    let unused := ofBackend (.ofPolicy .unix)
    let f := (unused.run before steps).2.1
    let ts := unused.trace before steps
    f.backend.stage = .running →
      ∃ t₀, opener? ts = some t₀
        ∧ (f.backend.rearmPending = true ↔
          (∃ t ∈ sinceOpening ts, t.hearsLoss = true)
            ∨ t₀.step = .call .start ∧ t₀.before.backend.rearmPending = true
              ∧ t₀.world.opensHandles = false) := by
  intro unused f ts hrunning
  have hreachable : Reachable .unix f (unused.run before steps).2.2 := ⟨before, steps, hjournal, rfl⟩
  obtain ⟨w, honored, hf, hstanding⟩ := hreachable.standing
  have hlistens : w.listener.isSome = true := by
    rw [hf] at hrunning
    replace hrunning : w.stage = .running := hrunning
    cases hstanding.lawful with
    | listening l r listener => rw [listener]; rfl
    | silent _ stage =>
      rw [stage] at hrunning
      cases hrunning
  obtain ⟨t₀, hopener, hpending⟩ := rearmPending_of_listening hjournal (Prod.ext hf rfl) hlistens
  refine ⟨t₀, hopener, ?_⟩
  have hbackend : f.backend.rearmPending = w.rearmPending := by rw [hf]; rfl
  have hheard : (sinceOpening ts).any (·.hearsLoss) = true ↔
      ∃ t ∈ sinceOpening ts, t.hearsLoss = true := List.any_eq_true
  have hretried : t₀.retriesRearm = true ↔ t₀.step = .call .start
      ∧ t₀.before.backend.rearmPending = true ∧ t₀.world.opensHandles = false := by
    simp [Transition.retriesRearm, and_assoc]
  have hrearms : NativePolicy.unix.rearms = true := rfl
  rw [hbackend, hpending, hrearms, Bool.true_and, Bool.or_eq_true, hheard, hretried, or_comm]

/-- A rearm is pending on the handle whose root was removed. -/
theorem rearm_pending_of_removed :
    let steps : List (Nat × Step) :=
      [(0, .call (.watch NativeWatch.topRequest)),
        (0, .happening (.event NativeWatch.topRemoved))]
    let f := ((ofBackend (.ofPolicy .unix)).run { disk := {} } steps).2.1
    f.backend.stage = .running ∧ f.backend.rearmPending = true := by
  intro steps f
  have hrunning : f.backend.stage = .running := by decide
  have hjournal : ({ disk := {} } : World).journal = [] := rfl
  obtain ⟨t₀, -, hiff⟩ := rearm_pending_iff hjournal steps hrunning
  exact ⟨hrunning, hiff.mpr (.inl (by decide))⟩

/-- A rearm can be pending on a handle that heard nothing: when the first handle that `start` asks
for fails, and the second one opens. -/
theorem rearm_pending_beside_sound_handle :
    ¬∀ (before : World) (steps : List (Nat × Step)), before.journal = [] →
      let unused := ofBackend (.ofPolicy .unix)
      let f := (unused.run before steps).2.1
      f.backend.stage = .running → f.backend.rearmPending = true →
        ∃ t ∈ sinceOpening (unused.trace before steps), t.hearsLoss = true := by
  intro hall
  have hheard := hall { disk := {} }
    [(0, .call (.watch NativeWatch.topRequest)), (0, .happening (.event NativeWatch.topRemoved)),
      (0, .happening (.openFault ⟨.tooManyWatches, []⟩)), (0, .call .start)]
    rfl (by decide) (by decide)
  revert hheard
  decide

end Watcher

end FileWatch

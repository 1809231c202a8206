import FileWatch.Proofs.Watcher.Provenance

/-! # Honored — what the honored mask tells

A watcher sets its honored mask in calls of `watch` only, while the backend comes to run and ceases
to run by itself. A backend that runs serves the request of the latest call of `watch`, so its
listener filters by that mask. But a backend that stopped, or that lost its handle in a rearm, keeps
the request, and the mask stays with it (`honored_of_latest_watch`).
-/

namespace FileWatch.Watcher

/-! ### The latest call of `watch` -/

/-- What a call of `watch` came to: the request that it established, if it did. `none` for any other
step. -/
def Transition.outcome? (t : Transition) : Option (Option WatchRequest) :=
  t.step.watched?.map fun r => if t.reply = .established true then some r else none

/-- The request of the latest call of `watch`, if that call established it. -/
def established? (ts : List Transition) : Option WatchRequest :=
  (ts.filterMap Transition.outcome?).getLast?.join

theorem established?_concat_watch {t : Transition} {r : WatchRequest}
    (h : t.step = .call (.watch r)) (ts : List Transition) :
    established? (ts ++ [t]) = if t.reply = .established true then some r else none := by
  have houtcome : t.outcome? = some (if t.reply = .established true then some r else none) := by
    rw [Transition.outcome?, h]
    rfl
  simp [established?, houtcome]

theorem established?_concat_of_keeps {t : Transition} (h : ∀ r, t.step ≠ .call (.watch r))
    (ts : List Transition) : established? (ts ++ [t]) = established? ts := by
  have houtcome : t.outcome? = none := by
    rw [Transition.outcome?, Step.watched?_of_keeps h]
    rfl
  simp [established?, houtcome]

variable {p : NativePolicy} {before : World}

/-- The request that is kept is that of the latest call of `watch`, if that call established it. -/
theorem request?_run (p : NativePolicy) (before : World) (steps : List (Nat × Step)) :
    ((ofBackend (.ofPolicy p)).run before steps).2.1.request? =
      established? ((ofBackend (.ofPolicy p)).trace before steps) := by
  -- from the end of the run: the last step decides, or it leaves to those before it
  induction steps using List.reverseRecOn with
  | nil => rfl
  | append_singleton steps s ih =>
    obtain ⟨now, s⟩ := s
    obtain ⟨w, honored, hend⟩ := exists_native_of_run p before steps
    rw [trace_concat, run_concat]
    rw [hend] at ih ⊢
    rcases s.watch_cases with ⟨r, rfl⟩ | hs
    · rw [established?_concat_watch rfl, Transition.reply_native rfl, step_native]
      show (w.act p _ now (.call (.watch r))).2.1.request = _
      rcases w.act_watch_cases (p := p) ((ofBackend (.ofPolicy p)).run before steps).2.2 now r with
        ⟨root, hreply, hafter⟩ | ⟨hreply, hafter⟩
      · rw [hafter, hreply]
        rfl
      · rw [hafter, hreply]
        rfl
    · rw [established?_concat_of_keeps hs, ← ih, step_native]
      exact w.request_act _ now hs

/-! ### The mask -/

/-- **The honored mask is that of the latest call of `watch`, also once nothing is watched.** After
any run of a watcher on a native backend, the mask is what the latest call of `watch` asked for, as
far as the backend can observe it, or empty if that call failed or there was none. While the watcher
runs, this is the mask by which the listener of its handle filters, and the request is the latest
one. While it does not run it has no listener, and yet the mask is empty only if no request is kept
or the kept one asks for nothing that can be observed. -/
theorem honored_of_latest_watch (hjournal : before.journal = []) (steps : List (Nat × Step)) :
    let unused := ofBackend (.ofPolicy p)
    let f := (unused.run before steps).2.1
    let kept? := established? (unused.trace before steps)
    f.request? = kept? ∧ f.honored = askedFor p kept?
      ∧ (f.backend.stage = .running →
          ∃ l r, f.listener? = some l ∧ kept? = some r ∧ latestRequest? steps = some r
            ∧ f.honored = l.events ∧ l.events = r.events &&& p.supported)
      ∧ (f.backend.stage ≠ .running →
          f.backend.stage = .idle ∧ f.listener? = none
            ∧ (f.honored = .empty ↔ ∀ r, kept? = some r → r.events &&& p.supported = .empty)) := by
  intro unused f kept?
  have hkept : f.request? = kept? := request?_run p before steps
  have hreached : Reachable p f (unused.run before steps).2.2 := ⟨before, steps, hjournal, rfl⟩
  obtain ⟨w, honored, hf, hstanding⟩ := hreached.standing
  have hrequest : w.request = kept? := by
    rw [← hkept, hf]
    rfl
  have hhonored : f.honored = askedFor p kept? := by
    rw [hf, ← hrequest]
    exact hstanding.honored
  refine ⟨hkept, hhonored, fun hrunning => ?_, fun hidle => ?_⟩
  · cases hstanding.lawful with
    | silent listener stage =>
      rw [hf] at hrunning
      cases stage.symm.trans hrunning
    | listening l r listener request serves =>
      have hr : kept? = some r := hrequest.symm.trans request
      refine ⟨l, r, ?_, hr, latestRequest?_of_request? (hkept.trans hr), ?_, serves.events⟩
      · rw [hf]
        exact listener
      · rw [hhonored, hr, serves.events]
        rfl
  · cases hstanding.lawful with
    | listening l r listener request serves stage =>
      rw [hf] at hidle
      exact absurd stage hidle
    | silent listener stage =>
      refine ⟨?_, ?_, ?_⟩
      · rw [hf]
        exact stage
      · rw [hf]
        exact listener
      · rw [hhonored]
        cases hr : kept? with
        | none => simp [askedFor]
        | some r => simp [askedFor]

/-- A watcher whose rearm fails keeps its mask while it has no handle, and filters by it again once
a handle opens. -/
theorem honored_of_failed_rearm :
    let lost : List (Nat × Step) :=
      [(0, .call (.watch NativeWatch.topRequest)), (0, .happening (.event NativeWatch.topRemoved)),
        (0, .happening (.openFault ⟨.tooManyWatches, []⟩)), (0, .call .poll)]
    let regained := lost ++ [(0, .call .start)]
    let unused := ofBackend (.ofPolicy .unix)
    let bereft := (unused.run { disk := {} } lost).2.1
    let rearmed := (unused.run { disk := {} } regained).2.1
    (bereft.backend.stage = .idle ∧ bereft.listener? = none ∧ bereft.honored ≠ .empty)
      ∧ rearmed.backend.stage = .running
      ∧ ∃ l, rearmed.listener? = some l ∧ l.events = bereft.honored := by
  intro lost regained unused bereft rearmed
  have hkept : established? (unused.trace { disk := {} } lost) = some NativeWatch.topRequest := rfl
  have hidle : bereft.backend.stage ≠ .running := by decide
  have hrunning : rearmed.backend.stage = .running := by decide
  have hjournal : ({ disk := {} } : World).journal = [] := rfl
  obtain ⟨-, hhonored, -, hsilent⟩ := honored_of_latest_watch (p := .unix) hjournal lost
  obtain ⟨-, hagain, hlistening, -⟩ := honored_of_latest_watch (p := .unix) hjournal regained
  obtain ⟨hstage, hlistener, hempty⟩ := hsilent hidle
  obtain ⟨l, r, hl, hr, -, hfilters, -⟩ := hlistening hrunning
  refine ⟨⟨hstage, hlistener, fun hnone => ?_⟩, hrunning, l, hl, ?_⟩
  · have hnothing := hempty.mp hnone _ hkept
    revert hnothing
    decide
  · obtain rfl : NativeWatch.topRequest = r := Option.some.inj hr
    rw [← hfilters, hagain, hhonored]
    rfl

/-- A watcher that was stopped is idle, and its honored mask is not empty. -/
theorem honored_of_stopped :
    let steps : List (Nat × Step) := [(0, .call (.watch NativeWatch.topRequest)), (0, .call .stop)]
    let stopped := ((ofBackend (.ofPolicy .unix)).run { disk := {} } steps).2.1
    ¬(stopped.backend.stage ≠ .running → stopped.honored = .empty) := by
  decide

end FileWatch.Watcher

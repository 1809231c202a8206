import FileWatch.Proofs.Watcher.Reached

/-! # Stopping — a stopped watcher is silent, and it can go on

`NativeWatch.halted` is what `stop` leaves of a watch: the request that it keeps, and nothing else.
Only the calls `start` and `watch` move it on (`act_halted`). `start` does for the kept request what
`watch` would do, as both come to the same attempt (`start_halted`, `watch_halted`), but when it
fails the request stays.
-/

namespace FileWatch

namespace NativeWatch

/-- The watch that keeps a request, and nothing else. -/
def halted (r : Option WatchRequest) : NativeWatch := { fresh with request := r }

variable {p : NativePolicy} (r : Option WatchRequest) (world : World)

theorem poll_halted : (halted r).poll p world = (none, halted r, world) := rfl

theorem drainPolls_halted : (halted r).drainPolls p world = 1 := by
  rw [drainPolls, drain_of_none (by rw [poll_halted])]
  rfl

/-- Nothing but a call of `start` or `watch` gets anything out of a halted watch. -/
theorem act_halted (now : Nat) {s : Watcher.Step} (hwatch : ∀ q, s ≠ .call (.watch q))
    (hstart : s ≠ .call .start) :
    ((halted r).act p world now s).1.notifications = []
      ∧ ((halted r).act p world now s).2.1 = halted r := by
  cases s with
  | call c =>
    cases c with
    | watch q => exact absurd rfl (hwatch q)
    | start => exact absurd rfl hstart
    | stop => exact ⟨rfl, rfl⟩
    | poll => exact ⟨rfl, rfl⟩
    | drain =>
      rw [act, drainPolls_halted]
      exact ⟨rfl, rfl⟩
  | happening h => cases h <;> exact ⟨rfl, rfl⟩

theorem start_halted (q : WatchRequest) :
    (halted (some q)).start p world =
      match attempt p world q with
      | (.ok root, after) => (serving p q root, after)
      | (.error e, after) => (halted (some q), after.note (.refused e)) := by
  have hsettled : rearmIfPending p (halted (some q)) world = (halted (some q), world) :=
    rearmIfPending_of_settled world rfl
  rw [start_eq, hsettled, resume_of_silent world rfl rfl]
  rcases attempt p world q with ⟨e | root, after⟩ <;> rfl

end NativeWatch

namespace Watcher

open NativeWatch (halted)

variable {p : NativePolicy}

/-- Whether a step can get a watcher that was stopped to go on. -/
def Step.wakes : Step → Bool
  | .call (.watch _) | .call .start => true
  | _ => false

/-- A stopped watcher says nothing and stays as it is until a call wakes it. -/
theorem run_halted (r : Option WatchRequest) (honored : EventMask) (world : World)
    {steps : List (Nat × Step)} (hsteps : ∀ s ∈ steps, s.2.wakes = false) :
    (run ⟨.native p (halted r), honored⟩ world steps).2.1 = ⟨.native p (halted r), honored⟩
      ∧ ∀ a ∈ (run ⟨.native p (halted r), honored⟩ world steps).1,
        a.reply.notifications = [] ∧ a.stage = .idle ∧ a.pending = 0 ∧ a.honored = honored := by
  induction steps generalizing world with
  | nil => exact ⟨rfl, fun a ha => nomatch ha⟩
  | cons s rest ih =>
    obtain ⟨now, s⟩ := s
    have hs : s.wakes = false := hsteps (now, s) (List.mem_cons_self ..)
    have hwatch : ∀ q, s ≠ .call (.watch q) := by
      rintro q rfl
      cases hs
    have hstart : s ≠ .call .start := by
      rintro rfl
      cases hs
    obtain ⟨hreply, hafter⟩ := NativeWatch.act_halted (p := p) r world now hwatch hstart
    obtain ⟨hend, hanswers⟩ := ih ((halted r).act p world now s).2.2 fun s' hs' =>
      hsteps s' (List.mem_cons_of_mem _ hs')
    rw [run_native_cons]
    simp only [hafter, honoredAfter_of_keeps honored hwatch]
    refine ⟨hend, fun a ha => ?_⟩
    rcases List.mem_cons.mp ha with rfl | ha
    · exact ⟨hreply, rfl, rfl, rfl⟩
    · exact hanswers a ha

/-- A call of `watch` for the request that a stopped watcher keeps. -/
theorem watch_halted (q : WatchRequest) (honored : EventMask) (world : World) :
    watch ⟨.native p (halted (some q)), honored⟩ world q =
      match NativeWatch.attempt p world q with
      | (.ok root, after) => (true, serving p q root, after)
      | (.error e, after) => (false, ofBackend (.ofPolicy p), after.note (.refused e)) :=
  watch_native_eq (halted (some q)) honored world q

/-- **A stopped watcher is silent, and it can go on.** Whatever a watcher went through, `stop`
leaves it idle, without a handle, with nothing queued and no rearm pending, and with the request
that it kept. To stop it again changes nothing. Until a call of `start` or `watch` it gives nothing
back and stays as it is. A call of `start` then leaves the watcher and the world as a call of
`watch` for the kept request would, if that succeeds, and otherwise it leaves the watcher stopped,
where `watch` would leave it as one that was never used. Without a request it does nothing. -/
theorem stop_silences {f : Watcher} {world : World} (h : Reachable p f world) :
    let stopped := (f.stop world).1
    stopped =
        { backend := .native p
            { queue := Queue.empty, stage := .idle, request := f.request?, root := none
              listener := none, rearmPending := false }
          honored := f.honored }
      ∧ stopped.stop (f.stop world).2 = (stopped, (f.stop world).2)
      ∧ (∀ steps : List (Nat × Step), (∀ s ∈ steps, s.2.wakes = false) →
          (stopped.run (f.stop world).2 steps).2.1 = stopped
            ∧ ∀ a ∈ (stopped.run (f.stop world).2 steps).1,
              a.reply.notifications = [] ∧ a.stage = .idle ∧ a.pending = 0
                ∧ a.honored = f.honored)
      ∧ ∀ later : World,
          (f.request? = none → stopped.start later = (stopped, later))
            ∧ ∀ r, f.request? = some r →
              ((stopped.watch later r).1 = true →
                  stopped.start later = (stopped.watch later r).2
                    ∧ ∃ root, p.validate later.disk r = .ok root
                      ∧ (stopped.start later).1 = serving p r root)
                ∧ ((stopped.watch later r).1 = false →
                  stopped.start later = (stopped, (stopped.watch later r).2.2)
                    ∧ (stopped.watch later r).2.1 = ofBackend (.ofPolicy p)) := by
  obtain ⟨w, honored, rfl, hstanding⟩ := h.standing
  intro stopped
  have hstopped : stopped = ⟨.native p (halted w.request), honored⟩ := rfl
  refine ⟨rfl, rfl, fun steps hsteps => ?_, fun later => ⟨fun hnone => ?_, fun r hr => ?_⟩⟩
  · exact run_halted w.request honored _ hsteps
  · replace hnone : w.request = none := hnone
    rw [hstopped, hnone]
    rfl
  · replace hr : w.request = some r := hr
    have hhonored : honored = r.events &&& p.supported := by
      rw [hstanding.honored, hr]
      rfl
    rw [hr] at hstopped
    have hstart : stopped.start later =
        (⟨.native p ((halted (some r)).start p later).1, honored⟩,
          ((halted (some r)).start p later).2) := by
      rw [hstopped]
      rfl
    rw [hstart, hstopped, watch_halted, NativeWatch.start_halted]
    rcases hattempt : NativeWatch.attempt p later r with ⟨e | root, after⟩
    · exact ⟨nofun, fun _ => ⟨rfl, rfl⟩⟩
    · obtain ⟨hvalid, -, -⟩ := NativeWatch.attempt_ok_iff.mp hattempt
      refine ⟨fun _ => ⟨?_, root, hvalid, ?_⟩, nofun⟩
      · rw [hhonored]
        rfl
      · rw [hhonored]
        rfl

/-- A watcher that heard its root go away waits for nothing once it is stopped. It goes on from
there if a handle opens, and stays stopped if none does. -/
theorem stop_silences_bereaved :
    let steps : List (Nat × Step) :=
      [(0, .call (.watch NativeWatch.topRequest)), (0, .happening (.event NativeWatch.topRemoved))]
    let bereaved := ((ofBackend (.ofPolicy .unix)).run { disk := {} } steps).2
    let stopped := bereaved.1.stop bereaved.2
    let failing : World := { stopped.2 with openFault := some ⟨.tooManyWatches, []⟩ }
    Reachable .unix bereaved.1 bereaved.2
      ∧ bereaved.1.backend.rearmPending = true ∧ bereaved.1.backend.pending = 1
      ∧ stopped.1.backend.rearmPending = false ∧ stopped.1.backend.pending = 0
      ∧ (∀ a ∈ (stopped.1.run stopped.2 [(0, .happening (.event NativeWatch.topRemoved)),
          (0, .call .poll)]).1, a.reply.notifications = [])
      ∧ (∃ root, (stopped.1.start stopped.2).1 = serving .unix NativeWatch.topRequest root)
      ∧ (stopped.1.start failing).1 = stopped.1 := by
  intro steps bereaved stopped failing
  have hreachable : Reachable .unix bereaved.1 bereaved.2 := ⟨{ disk := {} }, steps, rfl, rfl⟩
  have hr : bereaved.1.request? = some NativeWatch.topRequest := rfl
  obtain ⟨hstopped, -, hsilent, hwoken⟩ := stop_silences hreachable
  have hestablished : (stopped.1.watch stopped.2 NativeWatch.topRequest).1 = true := by decide
  have hrefused : (stopped.1.watch failing NativeWatch.topRequest).1 = false := by decide
  obtain ⟨-, root, -, hserving⟩ := ((hwoken stopped.2).2 _ hr).1 hestablished
  obtain ⟨hfailed, -⟩ := ((hwoken failing).2 _ hr).2 hrefused
  refine ⟨hreachable, by decide, by decide, ?_, ?_, fun a ha => ?_, ⟨root, hserving⟩, ?_⟩
  · show (bereaved.1.stop bereaved.2).1.backend.rearmPending = false
    rw [hstopped]
    rfl
  · show (bereaved.1.stop bereaved.2).1.backend.pending = 0
    rw [hstopped]
    rfl
  · exact ((hsilent _ (by decide)).2 a ha).1
  · rw [hfailed]

end Watcher

end FileWatch

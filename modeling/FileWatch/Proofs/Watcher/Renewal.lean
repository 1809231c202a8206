import FileWatch.Proofs.Watcher.Transport

/-! # Renewal — a call of `watch` forgets what was before

Two watchers on the same kind of native backend, in worlds that are `Alike`, are the same after a
call of `watch`, and stay the same through any steps. When the call fails, the watcher is as one
that was never used, and as long as it is not asked to watch again it stays so.
-/

namespace FileWatch

/-- Worlds with the same disk, in which the next native handles meet the same failures. -/
structure World.Alike (a b : World) : Prop where
  disk : a.disk = b.disk
  openFault : a.openFault = b.openFault
  registerFault : a.registerFault = b.registerFault

/-- The world with a past before its journal. -/
def World.recalling (past : List JournalEntry) (world : World) : World :=
  { world with journal := past ++ world.journal }

/-- Worlds that are alike differ in their past only. -/
theorem World.Alike.eq_recalling {a b : World} (h : a.Alike b) :
    ∃ base : World, a = base.recalling a.journal ∧ b = base.recalling b.journal := by
  refine ⟨{ a with journal := [] }, by simp [recalling], ?_⟩
  simp [recalling, h.disk, h.openFault, h.registerFault]

theorem World.Alike.symm {a b : World} (h : a.Alike b) : b.Alike a :=
  ⟨h.disk.symm, h.openFault.symm, h.registerFault.symm⟩

theorem World.Alike.trans {a b c : World} (h : a.Alike b) (h' : b.Alike c) : a.Alike c :=
  ⟨h.disk.trans h'.disk, h.openFault.trans h'.openFault, h.registerFault.trans h'.registerFault⟩

/-- A past before the journal, which no call of a native watch reads. -/
def Transport.recalling (p : NativePolicy) (past : List JournalEntry) : Transport p where
  request := id
  journal := (past ++ ·)
  interchangeable _ := ⟨rfl, rfl, rfl, rfl⟩
  journal_concat entries e := (List.append_assoc past entries [e]).symm

namespace Transport

variable {p : NativePolicy} (past : List JournalEntry)

theorem onWatch_recalling (w : NativeWatch) : (recalling p past).onWatch w = w := by
  rw [onWatch, recalling, Option.map_id]
  rfl

theorem onStep_recalling : (recalling p past).onStep = id := by
  funext s
  rcases s.watch_cases with ⟨r, rfl⟩ | hs
  · rfl
  · exact onStep_of_keeps _ hs

end Transport

namespace NativeWatch

variable {p : NativePolicy} (w : NativeWatch) (world : World)

theorem released_alike : (w.released world).Alike world := by
  unfold released
  split <;> exact ⟨rfl, rfl, rfl⟩

theorem attempt_alike {a b : World} (h : a.Alike b) (r : WatchRequest) :
    (attempt p a r).1 = (attempt p b r).1 ∧ (attempt p a r).2.Alike (attempt p b r).2 := by
  obtain ⟨base, ha, hb⟩ := h.eq_recalling
  have hattempt (past : List JournalEntry) :
      attempt p (base.recalling past) r = (attempt p base r).map id (World.recalling past) :=
    (Transport.recalling p past).attempt_transported base r
  rw [ha, hb, hattempt, hattempt]
  exact ⟨rfl, rfl, rfl, rfl⟩

theorem poll_fresh : fresh.poll p world = (none, fresh, world) := rfl

theorem drainPolls_fresh : fresh.drainPolls p world = 1 := by
  rw [drainPolls, drain_of_none (by rw [poll_fresh])]
  rfl

/-- The calls of a watch that was never used give nothing back and do nothing. -/
theorem act_fresh_call (now : Nat) {c : Watcher.Call} (hc : ∀ r, c ≠ .watch r) :
    (fresh.act p world now (.call c)).1.notifications = []
      ∧ (fresh.act p world now (.call c)).2 = (fresh, world) := by
  cases c with
  | watch r => exact absurd rfl (hc r)
  | start => exact ⟨rfl, rfl⟩
  | stop => exact ⟨rfl, rfl⟩
  | poll => exact ⟨rfl, rfl⟩
  | drain =>
    rw [act, drainPolls_fresh]
    exact ⟨rfl, rfl⟩

/-- A watch that was never used hears of nothing. -/
theorem act_fresh (now : Nat) {s : Watcher.Step} (hs : ∀ r, s ≠ .call (.watch r)) :
    (fresh.act p world now s).1.notifications = [] ∧ (fresh.act p world now s).2.1 = fresh := by
  cases s with
  | call c =>
    have hcall := act_fresh_call (p := p) world now (c := c) (fun r h => hs r (congrArg _ h))
    exact ⟨hcall.1, congrArg Prod.fst hcall.2⟩
  | happening h => cases h <;> exact ⟨rfl, rfl⟩

end NativeWatch

namespace Watcher

variable {p : NativePolicy}

/-- The past of the world does not change the answers of a run. -/
theorem answers_recalling (past : List JournalEntry) (w : NativeWatch) (honored : EventMask)
    (world : World) (steps : List (Nat × Step)) :
    (run ⟨.native p w, honored⟩ (world.recalling past) steps).1 =
      (run ⟨.native p w, honored⟩ world steps).1 := by
  have hrun := (Transport.recalling p past).run_transported w world honored steps
  rw [Transport.onWatch_recalling, Transport.onStep_recalling, Prod.map_id, List.map_id] at hrun
  have hanswers := congrArg Prod.fst hrun
  exact hanswers

theorem honoredAfter_of_keeps (honored : EventMask) {s : Step} (hs : ∀ r, s ≠ .call (.watch r))
    (reply : Reply) : honoredAfter p honored s reply = honored := by
  unfold honoredAfter
  split
  · exact absurd rfl (hs _)
  · exact absurd rfl (hs _)
  · rfl

/-- The calls of a watcher that was never used give nothing back and do nothing. -/
theorem call_unused (world : World) {c : Call} (hc : ∀ r, c ≠ .watch r) :
    ((ofBackend (.ofPolicy p)).call world c).1.notifications = []
      ∧ ((ofBackend (.ofPolicy p)).call world c).2 = (ofBackend (.ofPolicy p), world) := by
  have hs : ∀ r, Step.call c ≠ .call (.watch r) := fun r h => hc r (Step.call.inj h)
  obtain ⟨hreply, hafter⟩ := NativeWatch.act_fresh_call (p := p) world 0 hc
  have hcall : (ofBackend (.ofPolicy p)).call world c =
      ((NativeWatch.fresh.act p world 0 (.call c)).1, ofBackend (.ofPolicy p), world) := by
    refine (step_native p NativeWatch.fresh .empty world 0 (.call c)).trans ?_
    rw [honoredAfter_of_keeps .empty hs, hafter]
    rfl
  rw [hcall]
  exact ⟨hreply, rfl⟩

/-- A watcher that was never used stays so, and gives nothing back, until it is asked to watch. -/
theorem run_unused (world : World) {steps : List (Nat × Step)}
    (hsteps : ∀ s ∈ steps, ∀ r, s.2 ≠ .call (.watch r)) :
    (run (ofBackend (.ofPolicy p)) world steps).2.1 = ofBackend (.ofPolicy p)
      ∧ ∀ a ∈ (run (ofBackend (.ofPolicy p)) world steps).1,
        a.reply.notifications = [] ∧ a.stage = .idle ∧ a.pending = 0 ∧ a.honored = .empty := by
  induction steps generalizing world with
  | nil => exact ⟨rfl, fun a ha => nomatch ha⟩
  | cons s rest ih =>
    obtain ⟨now, s⟩ := s
    have hs := hsteps (now, s) (by simp)
    obtain ⟨hreply, hfresh⟩ := NativeWatch.act_fresh (p := p) world now hs
    have hrest := ih (NativeWatch.fresh.act p world now s).2.2
      (fun s' hs' => hsteps s' (List.mem_cons_of_mem _ hs'))
    have hrun : run (ofBackend (.ofPolicy p)) world ((now, s) :: rest) =
        ((ofBackend (.ofPolicy p)).answer (NativeWatch.fresh.act p world now s).1 ::
            (run (ofBackend (.ofPolicy p)) (NativeWatch.fresh.act p world now s).2.2 rest).1,
          (run (ofBackend (.ofPolicy p)) (NativeWatch.fresh.act p world now s).2.2 rest).2) := by
      refine (run_native_cons p NativeWatch.fresh .empty world now s rest).trans ?_
      simp only [honoredAfter_of_keeps .empty hs, hfresh]
      rfl
    rw [hrun]
    refine ⟨hrest.1, fun a ha => ?_⟩
    rcases List.mem_cons.mp ha with rfl | ha
    · exact ⟨hreply, rfl, rfl, rfl⟩
    · exact hrest.2 a ha

/-! ### The call -/

/-- A watcher that serves a request from a root and has seen nothing yet. -/
def serving (p : NativePolicy) (r : WatchRequest) (root : Path) : Watcher :=
  ⟨.native p (NativeWatch.serving p r root), r.events &&& p.supported⟩

theorem watch_native_eq (w : NativeWatch) (honored : EventMask) (world : World) (r : WatchRequest) :
    watch ⟨.native p w, honored⟩ world r =
      match NativeWatch.attempt p (w.released world) r with
      | (.ok root, after) => (true, serving p r root, after)
      | (.error e, after) => (false, ofBackend (.ofPolicy p), after.note (.refused e)) := by
  rw [watch_native, NativeWatch.watch_eq]
  rcases NativeWatch.attempt p (w.released world) r with ⟨e | root, after⟩ <;> rfl

/-- In worlds that are alike, a call of `watch` ends alike. -/
theorem watch_alike {world₁ world₂ : World} (hworlds : world₁.Alike world₂) (w₁ w₂ : NativeWatch)
    (honored₁ honored₂ : EventMask) (r : WatchRequest) :
    (watch ⟨.native p w₁, honored₁⟩ world₁ r).1 = (watch ⟨.native p w₂, honored₂⟩ world₂ r).1
      ∧ (watch ⟨.native p w₁, honored₁⟩ world₁ r).2.1 =
          (watch ⟨.native p w₂, honored₂⟩ world₂ r).2.1
      ∧ (watch ⟨.native p w₁, honored₁⟩ world₁ r).2.2.Alike
          (watch ⟨.native p w₂, honored₂⟩ world₂ r).2.2 := by
  -- closing a handle writes to the journal only, so both attempts are made in worlds that are alike
  have hreleased : (w₁.released world₁).Alike (w₂.released world₂) :=
    (w₁.released_alike world₁).trans (hworlds.trans (w₂.released_alike world₂).symm)
  obtain ⟨hend, hafter⟩ := NativeWatch.attempt_alike (p := p) hreleased r
  rw [watch_native_eq, watch_native_eq]
  generalize NativeWatch.attempt p (w₁.released world₁) r = one at hend hafter ⊢
  generalize NativeWatch.attempt p (w₂.released world₂) r = other at hend hafter ⊢
  rcases one with ⟨e₁ | root₁, after₁⟩ <;> rcases other with ⟨e₂ | root₂, after₂⟩ <;> cases hend
  · exact ⟨rfl, rfl, hafter.disk, hafter.openFault, hafter.registerFault⟩
  · exact ⟨rfl, rfl, hafter⟩

/-- In worlds that are alike, a watcher gives the same answers. -/
theorem run_alike {world₁ world₂ : World} (hworlds : world₁.Alike world₂) (w : NativeWatch)
    (honored : EventMask) (steps : List (Nat × Step)) :
    (run ⟨.native p w, honored⟩ world₁ steps).1 = (run ⟨.native p w, honored⟩ world₂ steps).1 := by
  obtain ⟨base, h₁, h₂⟩ := hworlds.eq_recalling
  rw [h₁, h₂, answers_recalling, answers_recalling]

/-- A call of `watch` succeeds when its target is valid and the handle opens. -/
theorem watch_established_iff (w : NativeWatch) (honored : EventMask) (world : World)
    (r : WatchRequest) :
    (watch ⟨.native p w, honored⟩ world r).1 = true ↔
      (∃ root, p.validate world.disk r = .ok root) ∧ world.opensHandles = true := by
  rw [watch_native_eq]
  rcases hattempt : NativeWatch.attempt p (w.released world) r with ⟨e | root, after⟩
  · rcases NativeWatch.attempt_error hattempt with ⟨hvalid, -⟩ | ⟨root, hvalid, hopens, -⟩
    · rw [NativeWatch.disk_released] at hvalid
      simp [hvalid]
    · rw [NativeWatch.opensHandles_released] at hopens
      simp [hopens]
  · obtain ⟨hvalid, hopens, -⟩ := NativeWatch.attempt_ok_iff.mp hattempt
    rw [NativeWatch.disk_released] at hvalid
    rw [NativeWatch.opensHandles_released] at hopens
    simp [hvalid, hopens]

theorem watch_of_established {w : NativeWatch} {honored : EventMask} {world : World}
    {r : WatchRequest} (h : (watch ⟨.native p w, honored⟩ world r).1 = true) :
    ∃ root, p.validate world.disk r = .ok root
      ∧ (watch ⟨.native p w, honored⟩ world r).2.1 = serving p r root := by
  rw [watch_native_eq] at h ⊢
  rcases hattempt : NativeWatch.attempt p (w.released world) r with ⟨e | root, after⟩
  · rw [hattempt] at h
    cases h
  · obtain ⟨hvalid, -, -⟩ := NativeWatch.attempt_ok_iff.mp hattempt
    exact ⟨root, by rwa [NativeWatch.disk_released] at hvalid, rfl⟩

theorem watch_of_refused {w : NativeWatch} {honored : EventMask} {world : World}
    {r : WatchRequest} (h : (watch ⟨.native p w, honored⟩ world r).1 = false) :
    (watch ⟨.native p w, honored⟩ world r).2.1 = ofBackend (.ofPolicy p) := by
  rw [watch_native_eq] at h ⊢
  rcases hattempt : NativeWatch.attempt p (w.released world) r with ⟨e | root, after⟩
  · rfl
  · rw [hattempt] at h
    cases h

theorem exists_native_of_watch (w : NativeWatch) (honored : EventMask) (world : World)
    (r : WatchRequest) : ∃ w' honored',
      (watch ⟨.native p w, honored⟩ world r).2.1 = ⟨.native p w', honored'⟩ := by
  rw [watch_native]
  exact ⟨_, _, rfl⟩

/-- **A call of `watch` forgets what was before.** Whatever two watchers on backends of one policy
went through, in worlds that are alike the call gives both the same answer and leaves them the
same, and all steps after it get the same answers from both. If it succeeds the watcher serves the
request and has seen nothing yet, and if it fails the watcher is as one that was never used. -/
theorem watch_forgets {world₁ world₂ : World} (hworlds : world₁.Alike world₂)
    (w₁ w₂ : NativeWatch) (honored₁ honored₂ : EventMask) (r : WatchRequest) :
    let one := watch ⟨.native p w₁, honored₁⟩ world₁ r
    let other := watch ⟨.native p w₂, honored₂⟩ world₂ r
    (one.1 = other.1 ∧ one.2.1 = other.2.1 ∧ one.2.2.Alike other.2.2)
      ∧ (∀ steps, (one.2.1.run one.2.2 steps).1 = (other.2.1.run other.2.2 steps).1)
      ∧ (one.1 = true ↔
          (∃ root, p.validate world₁.disk r = .ok root) ∧ world₁.opensHandles = true)
      ∧ (one.1 = true → ∃ root, p.validate world₁.disk r = .ok root ∧
          one.2.1 =
            { backend := .native p
                { queue := Queue.empty, stage := .running, request := some r, root := some root
                  listener := some
                    { scope := ⟨root, r.options.recursive⟩, events := r.events &&& p.supported
                      debouncer := ⟨r.options.debounce, []⟩, renames := ⟨[]⟩, connected := true }
                  rearmPending := false }
              honored := r.events &&& p.supported })
      ∧ (one.1 = false → one.2.1 = ofBackend (.ofPolicy p) ∧
          (∀ c, (∀ q, c ≠ .watch q) →
            (one.2.1.call one.2.2 c).1.notifications = [] ∧
              (one.2.1.call one.2.2 c).2 = (ofBackend (.ofPolicy p), one.2.2)) ∧
          ∀ steps : List (Nat × Step), (∀ s ∈ steps, ∀ q, s.2 ≠ .call (.watch q)) →
            (one.2.1.run one.2.2 steps).2.1 = ofBackend (.ofPolicy p) ∧
              ∀ a ∈ (one.2.1.run one.2.2 steps).1,
                a.reply.notifications = [] ∧ a.stage = .idle ∧ a.pending = 0
                  ∧ a.honored = .empty) := by
  obtain ⟨hanswer, hwatcher, hafter⟩ := watch_alike hworlds w₁ w₂ honored₁ honored₂ r (p := p)
  refine ⟨⟨hanswer, hwatcher, hafter⟩, fun steps => ?_, watch_established_iff w₁ honored₁ world₁ r,
    watch_of_established, fun hrefused => ?_⟩
  · obtain ⟨w, honored, hnative⟩ := exists_native_of_watch (p := p) w₂ honored₂ world₂ r
    rw [hwatcher, hnative]
    exact run_alike hafter w honored steps
  · have hunused := watch_of_refused hrefused
    refine ⟨hunused, fun c hc => ?_, fun steps hsteps => ?_⟩
    · rw [hunused]
      exact call_unused _ hc
    · rw [hunused]
      exact run_unused _ hsteps

/-- A bereft watcher that is asked to watch again is as one that was never used before, and had the
handle failed once more, it would be as one that was never used at all. -/
theorem watch_forgets_bereft :
    let bereft : Watcher := ⟨.native .unix NativeWatch.bereft.1, EventMask.all⟩
    let again := bereft.watch NativeWatch.bereft.2 NativeWatch.topRequest
    let failing : World := { NativeWatch.bereft.2 with openFault := some ⟨.tooManyWatches, []⟩ }
    again.1 = true
      ∧ again.2.1 = ((ofBackend (.ofPolicy .unix)).watch { disk := {} } NativeWatch.topRequest).2.1
      ∧ again.2.1.backend.stage = .running ∧ again.2.1.backend.rearmPending = false
      ∧ (bereft.watch failing NativeWatch.topRequest).2.1 = ofBackend (.ofPolicy .unix) := by
  intro bereft again failing
  have hworlds : World.Alike NativeWatch.bereft.2 { disk := {} } := ⟨rfl, rfl, rfl⟩
  have hfailing : failing.Alike failing := ⟨rfl, rfl, rfl⟩
  obtain ⟨⟨-, hsame, -⟩, -, hestablished, hserves, -⟩ := watch_forgets (p := .unix) hworlds
    NativeWatch.bereft.1 NativeWatch.fresh EventMask.all .empty NativeWatch.topRequest
  obtain ⟨-, -, -, -, hunused⟩ := watch_forgets (p := .unix) hfailing
    NativeWatch.bereft.1 NativeWatch.bereft.1 EventMask.all EventMask.all NativeWatch.topRequest
  have hanswer : again.1 = true := hestablished.mpr ⟨⟨⟨[Path.slash]⟩, rfl⟩, by decide⟩
  obtain ⟨root, -, hserving⟩ := hserves hanswer
  refine ⟨hanswer, hsame, ?_, ?_, (hunused (by decide)).1⟩
  · rw [hserving]
    rfl
  · rw [hserving]
    rfl

end Watcher

end FileWatch

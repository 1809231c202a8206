import FileWatch.Proofs.Native.Handles
import FileWatch.Proofs.Watcher.Renewal

/-! # Reached — the watchers that runs lead to

A run that begins with a native backend ends with one, and what each step keeps holds at its end
(`run_keeps`). Wherever a run leads from a watcher that was never used, the watch is lawful, and the
mask that is honored is the one that the kept request asks for, as far as it can be observed
(`Reachable.standing`): no step but a call of `watch` touches either of the two.
-/

namespace FileWatch

namespace NativeWatch

variable {p : NativePolicy} (w : NativeWatch) (world : World)

/-! ### The request is kept -/

theorem request_deliver (now : Nat) (e : NativeEvent) :
    (w.deliver p world now e).2.1.request = w.request := by
  unfold deliver
  cases w.live? <;> rfl

theorem request_deliverError (e : NativeError) :
    (w.deliverError p world e).2.1.request = w.request := by
  unfold deliverError
  cases w.live? <;> rfl

theorem request_lose : w.lose.2.request = w.request := by
  unfold lose
  cases w.live? <;> rfl

/-- The request is kept by every step but a call of `watch`. -/
theorem request_act (now : Nat) {s : Watcher.Step} (hs : ∀ r, s ≠ .call (.watch r)) :
    (w.act p world now s).2.1.request = w.request := by
  cases s with
  | call c =>
    cases c with
    | watch r => exact absurd rfl (hs r)
    | start => exact request_start w world
    | stop => rfl
    | poll => exact request_poll w world
    | drain => exact request_polls (w.drainPolls p world) w world
  | happening h =>
    cases h with
    | event e => exact request_deliver w world now e
    | failure e => exact request_deliverError w world e
    | lose => exact request_lose w
    | edit | openFault | registerFault | nothing => rfl

/-- A call of `watch` leaves a watch that serves the request, or one that was never used. -/
theorem act_watch_cases (now : Nat) (r : WatchRequest) :
    (∃ root, (w.act p world now (.call (.watch r))).1 = .established true
        ∧ (w.act p world now (.call (.watch r))).2.1 = serving p r root)
      ∨ (w.act p world now (.call (.watch r))).1 = .established false
        ∧ (w.act p world now (.call (.watch r))).2.1 = fresh := by
  rw [act, watch_eq]
  rcases attempt p (w.released world) r with ⟨e | root, after⟩
  · exact .inr ⟨rfl, rfl⟩
  · exact .inl ⟨root, rfl, rfl⟩

end NativeWatch

namespace Watcher

/-- The request that the watcher keeps. -/
def request? (f : Watcher) : Option WatchRequest :=
  match f.backend with
  | .native _ w => w.request
  | .stub | .rehearsal _ => none

/-- The resolved root that is watched. -/
def root? (f : Watcher) : Option Path :=
  match f.backend with
  | .native _ w => w.root
  | .stub | .rehearsal _ => none

/-- The listener of the handle, while one is open. -/
def listener? (f : Watcher) : Option Listener :=
  match f.backend with
  | .native _ w => w.listener
  | .stub | .rehearsal _ => none

/-! ### Runs in parts -/

theorem run_append (f : Watcher) (world : World) (steps steps' : List (Nat × Step)) :
    f.run world (steps ++ steps') =
      ((f.run world steps).1 ++ ((f.run world steps).2.1.run (f.run world steps).2.2 steps').1,
        ((f.run world steps).2.1.run (f.run world steps).2.2 steps').2) := by
  induction steps generalizing f world with
  | nil => rfl
  | cons s rest ih =>
    obtain ⟨now, s⟩ := s
    rw [List.cons_append, run, run]
    simp only [ih]
    rfl

theorem trace_append (f : Watcher) (world : World) (steps steps' : List (Nat × Step)) :
    f.trace world (steps ++ steps') =
      f.trace world steps ++ (f.run world steps).2.1.trace (f.run world steps).2.2 steps' := by
  induction steps generalizing f world with
  | nil => rfl
  | cons s rest ih =>
    obtain ⟨now, s⟩ := s
    rw [List.cons_append, trace, trace]
    simp only [ih]
    rfl

theorem run_concat (f : Watcher) (world : World) (steps : List (Nat × Step)) (now : Nat)
    (s : Step) :
    (f.run world (steps ++ [(now, s)])).2 =
      ((f.run world steps).2.1.step (f.run world steps).2.2 now s).2 := by
  rw [run_append]
  rfl

theorem trace_concat (f : Watcher) (world : World) (steps : List (Nat × Step)) (now : Nat)
    (s : Step) :
    f.trace world (steps ++ [(now, s)]) =
      f.trace world steps ++ [⟨(f.run world steps).2.1, (f.run world steps).2.2, now, s⟩] :=
  trace_append f world steps [(now, s)]

/-! ### What steps keep -/

variable {p : NativePolicy}

/-- What holds of a watch and the honored mask at the start of a run, and is kept by its steps,
holds at its end. -/
theorem run_keeps (inv : NativeWatch → EventMask → World → Prop)
    (hact : ∀ w honored world now s, inv w honored world →
      inv (w.act p world now s).2.1 (honoredAfter p honored s (w.act p world now s).1)
        (w.act p world now s).2.2)
    {w : NativeWatch} {honored : EventMask} {world : World} (hw : inv w honored world)
    (steps : List (Nat × Step)) :
    ∃ w' honored', (run ⟨.native p w, honored⟩ world steps).2.1 = ⟨.native p w', honored'⟩
      ∧ inv w' honored' (run ⟨.native p w, honored⟩ world steps).2.2 := by
  induction steps generalizing w honored world with
  | nil => exact ⟨w, honored, rfl, hw⟩
  | cons s rest ih =>
    obtain ⟨now, s⟩ := s
    rw [run_native_cons]
    exact ih (hact w honored world now s hw)

/-- The watch that a run leads to from a watcher that was never used. -/
theorem exists_native_of_run (p : NativePolicy) (before : World) (steps : List (Nat × Step)) :
    ∃ w honored, ((ofBackend (.ofPolicy p)).run before steps).2.1 = ⟨.native p w, honored⟩ := by
  obtain ⟨w, honored, hend, -⟩ :
      ∃ w honored, (run ⟨.native p NativeWatch.fresh, .empty⟩ before steps).2.1 =
        ⟨.native p w, honored⟩ ∧ True :=
    run_keeps (fun _ _ _ => True) (fun _ _ _ _ _ h => h) trivial steps
  exact ⟨w, honored, hend⟩

/-- What holds of a watch at the start of a run, and is kept by steps as they are allowed in it,
holds at every step. -/
theorem forall_trace_of (allowed : Step → Prop) (inv : NativeWatch → World → Prop)
    (hact : ∀ w world now s, allowed s → inv w world →
      inv (w.act p world now s).2.1 (w.act p world now s).2.2)
    {w : NativeWatch} {honored : EventMask} {world : World} (hw : inv w world)
    {steps : List (Nat × Step)} (hsteps : ∀ s ∈ steps, allowed s.2) :
    ∀ t ∈ trace ⟨.native p w, honored⟩ world steps,
      ∃ w' honored', t.before = ⟨.native p w', honored'⟩ ∧ inv w' t.world := by
  induction steps generalizing w honored world with
  | nil => exact fun t ht => nomatch ht
  | cons s rest ih =>
    obtain ⟨now, s⟩ := s
    rw [trace_native_cons]
    intro t ht
    rcases List.mem_cons.mp ht with rfl | ht
    · exact ⟨w, honored, rfl, hw⟩
    · have hfirst := hact w world now s (hsteps (now, s) (List.mem_cons_self ..)) hw
      exact ih hfirst (fun s' hs' => hsteps s' (List.mem_cons_of_mem _ hs')) t ht

/-- What a request asks for, as far as it can be observed; nothing without a request. -/
def askedFor (p : NativePolicy) (r : Option WatchRequest) : EventMask :=
  (r.map fun r => r.events &&& p.supported).getD .empty

/-- What holds of a watch between calls, and of the mask that is honored. -/
structure Standing (p : NativePolicy) (w : NativeWatch) (honored : EventMask) (world : World) :
    Prop where
  lawful : NativeWatch.Lawful p w world
  honored : honored = askedFor p w.request

theorem Standing.act {w : NativeWatch} {honored : EventMask} {world : World}
    (h : Standing p w honored world) (now : Nat) (s : Step) :
    Standing p (w.act p world now s).2.1 (honoredAfter p honored s (w.act p world now s).1)
      (w.act p world now s).2.2 := by
  refine ⟨h.lawful.act now s, ?_⟩
  by_cases hs : ∀ r, s ≠ .call (.watch r)
  · rw [honoredAfter_of_keeps honored hs, w.request_act world now hs]
    exact h.honored
  · obtain ⟨r, hr⟩ : ∃ r, s = .call (.watch r) := by simpa using hs
    subst hr
    rcases w.act_watch_cases (p := p) world now r with ⟨root, hreply, hafter⟩ | ⟨hreply, hafter⟩
    · rw [hreply, hafter]
      rfl
    · rw [hreply, hafter]
      rfl

/-- Whether a run leads from a watcher that was never used, in a world where nothing was opened yet,
to a watcher and its world. -/
def Reachable (p : NativePolicy) (f : Watcher) (world : World) : Prop :=
  ∃ (before : World) (steps : List (Nat × Step)), before.journal = []
    ∧ ((ofBackend (.ofPolicy p)).run before steps).2 = (f, world)

theorem Reachable.standing {f : Watcher} {world : World} (h : Reachable p f world) :
    ∃ w honored, f = ⟨.native p w, honored⟩ ∧ Standing p w honored world := by
  obtain ⟨before, steps, hjournal, hrun⟩ := h
  have hunused : Standing p NativeWatch.fresh .empty before :=
    ⟨NativeWatch.lawful_fresh (by simp [World.holding?, hjournal]), rfl⟩
  obtain ⟨w, honored, hbackend, hstanding⟩ :=
    run_keeps (Standing p) (fun w honored world now s h => h.act now s) hunused steps
  have hf : (run ⟨.native p NativeWatch.fresh, .empty⟩ before steps).2.1 = f :=
    congrArg Prod.fst hrun
  have hworld : (run ⟨.native p NativeWatch.fresh, .empty⟩ before steps).2.2 = world :=
    congrArg Prod.snd hrun
  rw [hworld] at hstanding
  exact ⟨w, honored, hf.symm.trans hbackend, hstanding⟩

end Watcher

end FileWatch

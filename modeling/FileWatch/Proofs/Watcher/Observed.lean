import FileWatch.Proofs.EventMask.Algebra
import FileWatch.Proofs.Watcher.Transport
import Mathlib.Data.List.Forall2

/-! # Observed — what a backend cannot observe does not matter

`WatchRequest.observed` leaves of a request what a backend makes use of: it drops the classes of
change that the backend cannot observe, and the size of the buffer. The whole request is kept and
handed to every later attempt, but the request that is left is interchangeable with it, so that it
is a `Transport`. A run that asks for the requests that are left stands between two runs whose
requests are interchangeable.
-/

namespace FileWatch

/-- What a backend makes use of in a request. -/
def WatchRequest.observed (p : NativePolicy) (r : WatchRequest) : WatchRequest :=
  { r with
    events := r.events &&& p.supported
    options := { recursive := r.options.recursive, debounce := r.options.debounce } }

variable {p : NativePolicy}

theorem WatchRequest.Interchangeable.observed_eq {r r' : WatchRequest}
    (h : r.Interchangeable p r') : r.observed p = r'.observed p := by
  rw [WatchRequest.observed, WatchRequest.observed, h.path, h.events, h.recursive, h.debounce]

/-- Requests that differ in classes that the backend cannot observe, and in the size of the buffer.
-/
theorem WatchRequest.interchangeable_of_unobservable {extra : EventMask}
    (h : extra &&& p.supported = .empty) (r : WatchRequest) (size : UInt32) :
    r.Interchangeable p
      { r with events := r.events ||| extra, options := { r.options with bufferSize := size } } := by
  have hextra : extra.bits &&& p.supported.bits = 0 := congrArg EventMask.bits h
  refine ⟨rfl, EventMask.ext ?_, rfl, rfl⟩
  show r.events.bits &&& p.supported.bits = (r.events.bits ||| extra.bits) &&& p.supported.bits
  rw [BitVec.and_or_distrib_right, hextra]
  exact BitVec.or_zero.symm

/-- The watch that keeps of its request what the backend makes use of. -/
def NativeWatch.observed (p : NativePolicy) (w : NativeWatch) : NativeWatch :=
  { w with request := w.request.map (WatchRequest.observed p) }

/-- What is left of a request is all that the backend makes use of. -/
def Transport.observed (p : NativePolicy) : Transport p where
  request := WatchRequest.observed p
  journal := id
  interchangeable r := ⟨rfl, r.events.and_and_self p.supported, rfl, rfl⟩
  journal_concat _ _ := rfl

namespace Watcher

/-- Whether two steps are the same, but for what the backend cannot observe of a request. -/
inductive Step.Interchangeable (p : NativePolicy) : Step → Step → Prop where
  | same (s : Step) : Step.Interchangeable p s s
  | watch {r r' : WatchRequest} (h : r.Interchangeable p r') :
    Step.Interchangeable p (.call (.watch r)) (.call (.watch r'))

theorem Step.Interchangeable.observed_eq {s s' : Step} (h : s.Interchangeable p s') :
    (Transport.observed p).onStep s = (Transport.observed p).onStep s' := by
  cases h with
  | same => rfl
  | watch h => exact congrArg (fun r => Step.call (.watch r)) h.observed_eq

/-- The watcher whose watch keeps of its request what the backend makes use of. -/
def observed (p : NativePolicy) (f : Watcher) : Watcher :=
  { f with
    backend := match f.backend with
      | .native q w => .native q (w.observed p)
      | b => b }

@[simp] theorem stage_observed (f : Watcher) :
    (f.observed p).backend.stage = f.backend.stage := by
  obtain ⟨b, honored⟩ := f
  cases b <;> rfl

theorem onWatcher_observed (f : Watcher) : (Transport.observed p).onWatcher f = f.observed p := by
  obtain ⟨b, honored⟩ := f
  cases b <;> rfl

/-- **What a backend cannot observe does not matter.** Two runs of a watcher on a native backend, of
the same steps at the same times but for the requests of `watch`, get the same answers if each
request of the one is interchangeable with that of the other: the masks have the same classes of
change that the backend can observe, and the sizes of the buffer may be any. They also do the same
to the world, journal included, and leave the same watcher but for what the backend cannot observe
of the request that it keeps. -/
theorem run_of_interchangeable (w : NativeWatch) (honored : EventMask) (world : World)
    {steps steps' : List (Nat × Step)}
    (h : List.Forall₂ (fun s s' => s.1 = s'.1 ∧ s.2.Interchangeable p s'.2) steps steps') :
    let one := run ⟨.native p w, honored⟩ world steps
    let other := run ⟨.native p w, honored⟩ world steps'
    one.1 = other.1 ∧ one.2.2 = other.2.2 ∧ one.2.1.observed p = other.2.1.observed p := by
  intro one other
  -- both runs are compared with the one that asks for what the backend makes use of
  have hsteps : steps.map (Prod.map id (Transport.observed p).onStep) =
      steps'.map (Prod.map id (Transport.observed p).onStep) := by
    induction h with
    | nil => rfl
    | cons hs _ ih =>
      obtain ⟨hnow, hs⟩ := hs
      rw [List.map_cons, List.map_cons, ih, Prod.map, Prod.map, hnow, hs.observed_eq]
  have hone := (Transport.observed p).run_transported w world honored steps
  rw [hsteps, Transport.run_transported] at hone
  have hanswers := congrArg Prod.fst hone
  have hwatcher := congrArg (fun after => after.2.1) hone
  have hworld := congrArg (fun after => after.2.2) hone
  refine ⟨hanswers.symm, hworld.symm, ?_⟩
  rw [← onWatcher_observed, ← onWatcher_observed]
  exact hwatcher.symm

/-- A request for names, and one that also asks for what Unix handles cannot observe and for another
buffer, lead to the same answers, also once the handle is opened again by a rearm and after a stop.
-/
theorem run_of_interchangeable_rearmed :
    let plain : WatchRequest := ⟨⟨[Path.slash]⟩, .nameChanges, {}⟩
    let adorned : WatchRequest :=
      { plain with
        events := plain.events ||| ⟨0xFFFFFF60⟩
        options := { plain.options with bufferSize := 7 } }
    let steps (r : WatchRequest) : List (Nat × Step) :=
      [(0, .call (.watch r)), (0, .happening (.event NativeWatch.topRemoved)), (0, .call .poll),
        (0, .call .poll), (0, .call .stop), (0, .call .start)]
    let one := run (ofBackend (.ofPolicy .unix)) { disk := {} } (steps plain)
    let other := run (ofBackend (.ofPolicy .unix)) { disk := {} } (steps adorned)
    one.1 = other.1 ∧ one.2.1.backend.stage = .running ∧ other.2.1.backend.stage = .running
      ∧ one.1.map (fun a => a.reply.notifications) =
          [[], [], [⟨.removed, ⟨[Path.slash]⟩⟩], [⟨.added, ⟨[Path.slash]⟩⟩], [], []] := by
  intro plain adorned steps one other
  have hrequests : plain.Interchangeable .unix adorned :=
    WatchRequest.interchangeable_of_unobservable (by decide) plain 7
  have hsteps : List.Forall₂ (fun s s' => s.1 = s'.1 ∧ s.2.Interchangeable .unix s'.2)
      (steps plain) (steps adorned) :=
    .cons ⟨rfl, .watch hrequests⟩ (List.forall₂_same.mpr fun s _ => ⟨rfl, .same s.2⟩)
  obtain ⟨hanswers, -, hwatcher⟩ :
      one.1 = other.1 ∧ one.2.2 = other.2.2 ∧ one.2.1.observed .unix = other.2.1.observed .unix :=
    run_of_interchangeable NativeWatch.fresh .empty { disk := {} } hsteps
  have hrunning : one.2.1.backend.stage = .running := by decide
  refine ⟨hanswers, hrunning, ?_, by decide⟩
  have hstage : (other.2.1.observed .unix).backend.stage = .running := by
    rw [← hwatcher, stage_observed, hrunning]
  rwa [stage_observed] at hstage

end Watcher

end FileWatch

import FileWatch.Proofs.Native.Rearm
import FileWatch.Watcher.Run

/-! # Trace — a run step by step

A watcher on a native backend is a native watch and a mask: `NativeWatch.act` is what a step does to
the watch, and `step_native` says that a step of the watcher does this and sets the mask. A `trace`
lists the steps of a run, each as a `Transition`, that is with the watcher and the world that it
meets. What holds of every transition of such a run is shown once, by `forall_trace`.
-/

namespace FileWatch

namespace Watcher

/-- The notifications that a step gives back. -/
def Reply.notifications : Reply → List Notification
  | polled n => n.toList
  | drained ns => ns
  | nothing | established _ | delivered _ => []

/-- Whether a step leaves the present watch in force: it is not a call of `watch` or `stop`. -/
def Step.keepsWatch : Step → Bool
  | call (.watch _) | call .stop => false
  | _ => true

/-- A step is a call of `watch`, or it is not. -/
theorem Step.watch_cases (s : Step) :
    (∃ r, s = .call (.watch r)) ∨ ∀ r, s ≠ .call (.watch r) := by
  rw [← not_exists]
  exact Classical.em _

end Watcher

open Watcher (Reply)

namespace NativeWatch

variable (p : NativePolicy)

/-- What a step of a watcher gives back and does to its native watch. -/
def act (w : NativeWatch) (world : World) (now : Nat) :
    Watcher.Step → Reply × NativeWatch × World
  | .call (.watch r) => (w.watch p world r).map .established id
  | .call .start => (.nothing, w.start p world)
  | .call .stop => (.nothing, w.stop world)
  | .call .poll => (w.poll p world).map .polled id
  | .call .drain => (polls p (w.drainPolls p world) w world).map .drained id
  | .happening (.event e) => (w.deliver p world now e).map .delivered id
  | .happening (.failure e) => (w.deliverError p world e).map .delivered id
  | .happening .lose => (.delivered w.lose.1, w.lose.2, world)
  | .happening h => (.nothing, w, world.meet h)

/-- The roots on which a step opens the handle again. -/
def reopenedBy (w : NativeWatch) (world : World) : Watcher.Step → List Path
  | .call .start | .call .poll => (w.reopened? p world).toList
  | .call .drain => reopenedByPolls p (w.drainPolls p world) w world
  | _ => []

variable {p} {w : NativeWatch} {world : World}

/-- A watch that is stopped before it is to serve another request does as it would have done. -/
theorem watch_stop (w : NativeWatch) (world : World) (r : WatchRequest) :
    (w.stop world).1.watch p (w.stop world).2 r = w.watch p world r := by
  rw [watch_eq, watch_eq, stop_eq]
  rfl

theorem steps_act (w : NativeWatch) (world : World) (now : Nat) (s : Watcher.Step) :
    Relation.ReflTransGen (Step p) (w, world) (w.act p world now s).2 := by
  cases s with
  | call c =>
    cases c with
    | watch r => exact .single (.watch w world r)
    | start => exact .single (.start w world)
    | stop => exact .single (.stop w world)
    | poll => exact .single (.poll w world)
    | drain => exact steps_polls (w.drainPolls p world) w world
  | happening h =>
    cases h with
    | event e => exact .single (.event w world now e)
    | failure e => exact .single (.failure w world e)
    | lose => exact .single (.lose w world)
    | edit e => exact .single (.meet w world (.edit e))
    | openFault e => exact .single (.meet w world (.openFault e))
    | registerFault e => exact .single (.meet w world (.registerFault e))
    | nothing => exact .single (.meet w world .nothing)

theorem Lawful.act (h : Lawful p w world) (now : Nat) (s : Watcher.Step) :
    Lawful p (w.act p world now s).2.1 (w.act p world now s).2.2 :=
  h.steps (steps_act w world now s)

/-- What a call that keeps the watch gives back comes first in the queue, and what it queues last.
-/
theorem toList_act_call (w : NativeWatch) (world : World) (now : Nat) {c : Watcher.Call}
    (hc : (Watcher.Step.call c).keepsWatch = true) :
    (w.act p world now (.call c)).1.notifications
        ++ (w.act p world now (.call c)).2.1.queue.toList =
      w.queue.toList ++ (w.reopenedBy p world (.call c)).map (⟨.added, ·⟩) := by
  cases c with
  | watch r => cases hc
  | stop => cases hc
  | start => exact toList_start w world
  | poll => exact toList_poll w world
  | drain => exact toList_polls (w.drainPolls p world) w world

/-- A call that keeps the watch ends a pending rearm when it opens the handle again, and only then.
-/
theorem Lawful.pending_act_call (h : Lawful p w world) (now : Nat) {c : Watcher.Call}
    (hc : (Watcher.Step.call c).keepsWatch = true) :
    (w.reopenedBy p world (.call c)).length + (w.act p world now (.call c)).2.1.rearmPending.toNat =
      w.rearmPending.toNat := by
  cases c with
  | watch r => cases hc
  | stop => cases hc
  | start => exact h.pending_start
  | poll => exact h.pending_poll
  | drain => exact h.pending_polls (w.drainPolls p world)

/-- What goes on around a watch may raise a rearm, but it does not end one. -/
theorem pending_act_happening (w : NativeWatch) (world : World) (now : Nat) (h : Happening)
    (hpending : w.rearmPending = true) :
    (w.act p world now (.happening h)).2.1.rearmPending = true := by
  cases h with
  | event e =>
    show (w.deliver p world now e).2.1.rearmPending = true
    unfold deliver
    cases w.live? <;> simp [hpending]
  | failure e =>
    show (w.deliverError p world e).2.1.rearmPending = true
    unfold deliverError
    cases w.live? <;> simp [hpending]
  | lose =>
    show w.lose.2.rearmPending = true
    unfold lose
    cases w.live? <;> exact hpending
  | edit | openFault | registerFault | nothing => exact hpending

end NativeWatch

namespace Watcher

/-- The mask that is honored after a step with this reply. -/
def honoredAfter (p : NativePolicy) (honored : EventMask) : Step → Reply → EventMask
  | .call (.watch r), .established true => r.events &&& p.supported
  | .call (.watch _), _ => .empty
  | _, _ => honored

theorem watch_native (p : NativePolicy) (w : NativeWatch) (honored : EventMask) (world : World)
    (r : WatchRequest) :
    watch ⟨.native p w, honored⟩ world r =
      ((w.watch p world r).1,
        ⟨.native p (w.watch p world r).2.1,
          if (w.watch p world r).1 then r.events &&& p.supported else .empty⟩,
        (w.watch p world r).2.2) := by
  have hstop := NativeWatch.watch_stop (p := p) w world r
  rw [← hstop]
  rfl

/-- A step of a watcher on a native backend acts on its watch, and sets the mask. -/
theorem step_native (p : NativePolicy) (w : NativeWatch) (honored : EventMask) (world : World)
    (now : Nat) (s : Step) :
    step ⟨.native p w, honored⟩ world now s =
      ((w.act p world now s).1,
        ⟨.native p (w.act p world now s).2.1,
          honoredAfter p honored s (w.act p world now s).1⟩,
        (w.act p world now s).2.2) := by
  cases s with
  | call c =>
    cases c with
    | watch r =>
      simp only [step, call, watch_native, NativeWatch.act, Prod.map]
      cases (w.watch p world r).1 with
      | false => rfl
      | true => rfl
    | start => rfl
    | stop => rfl
    | poll => rfl
    | drain =>
      simp only [step, call, drain, NativeWatch.drain_eq_polls]
      rfl
  | happening h => cases h <;> rfl

/-- A step of a run, with the watcher and the world that it meets. -/
structure Transition where
  before : Watcher
  world : World
  now : Nat
  step : Step

namespace Transition

/-- What the step gives back. -/
def reply (t : Transition) : Reply := (t.before.step t.world t.now t.step).1

/-- The watcher after the step. -/
def after (t : Transition) : Watcher := (t.before.step t.world t.now t.step).2.1

/-- The world after the step. -/
def worldAfter (t : Transition) : World := (t.before.step t.world t.now t.step).2.2

/-- The roots on which the step opens the handle again. -/
def reopened (t : Transition) : List Path :=
  match t.before.backend with
  | .native p w => w.reopenedBy p t.world t.step
  | _ => []

section Native

variable {p : NativePolicy} {w : NativeWatch} {honored : EventMask} {t : Transition}
  (hbefore : t.before = ⟨.native p w, honored⟩)
include hbefore

theorem reply_native : t.reply = (w.act p t.world t.now t.step).1 := by
  rw [reply, hbefore, step_native]

theorem backend_after_native :
    t.after.backend = .native p (w.act p t.world t.now t.step).2.1 := by
  rw [after, hbefore, step_native]

theorem reopened_native : t.reopened = w.reopenedBy p t.world t.step := by
  rw [reopened, hbefore]

end Native

end Transition

/-- The transitions of a run. -/
def trace (f : Watcher) (world : World) : List (Nat × Step) → List Transition
  | [] => []
  | (now, s) :: rest =>
    let t : Transition := ⟨f, world, now, s⟩
    t :: t.after.trace t.worldAfter rest

section Native

variable (p : NativePolicy) (w : NativeWatch) (honored : EventMask) (world : World) (now : Nat)
  (s : Step) (rest : List (Nat × Step))

theorem run_native_cons :
    run ⟨.native p w, honored⟩ world ((now, s) :: rest) =
      let (reply, w', world') := w.act p world now s
      let f : Watcher := ⟨.native p w', honoredAfter p honored s reply⟩
      (f.answer reply :: (f.run world' rest).1, (f.run world' rest).2) := by
  rw [run, step_native]

theorem trace_native_cons :
    trace ⟨.native p w, honored⟩ world ((now, s) :: rest) =
      let (reply, w', world') := w.act p world now s
      let f : Watcher := ⟨.native p w', honoredAfter p honored s reply⟩
      ⟨⟨.native p w, honored⟩, world, now, s⟩ :: f.trace world' rest := by
  rw [trace, Transition.after, Transition.worldAfter, step_native]

end Native

/-- What holds of a watch at the start of a run, and is kept by its steps, holds at every step. -/
theorem forall_trace {p : NativePolicy} {inv : NativeWatch → World → Prop}
    (hact : ∀ w world now s, inv w world → inv (w.act p world now s).2.1 (w.act p world now s).2.2)
    {w : NativeWatch} {honored : EventMask} {world : World} (hw : inv w world)
    (steps : List (Nat × Step)) :
    ∀ t ∈ trace ⟨.native p w, honored⟩ world steps,
      ∃ w' honored', t.before = ⟨.native p w', honored'⟩ ∧ inv w' t.world := by
  induction steps generalizing w honored world with
  | nil => simp [trace]
  | cons s rest ih =>
    obtain ⟨now, s⟩ := s
    rw [trace_native_cons]
    intro t ht
    rcases List.mem_cons.mp ht with rfl | ht
    · exact ⟨w, honored, rfl, hw⟩
    · exact ih (hact w world now s hw) t ht

end Watcher

end FileWatch

import FileWatch.Watcher.Happening

/-! # Run — a watcher through calls and happenings

A run is a list of steps, each with the time at which it is taken: a caller calls the watcher, or
something goes on around it. `run` takes them one after the other and keeps what a caller can see
after each.
-/

namespace FileWatch.Watcher

/-- A call of a watcher. -/
inductive Call where
  | watch (r : WatchRequest)
  | start
  | stop
  | poll
  | drain
  deriving DecidableEq, Repr

/-- A step of a run. -/
inductive Step where
  | call (c : Call)
  | happening (h : Happening)
  deriving DecidableEq, Repr

/-- What a step gives back. -/
inductive Reply where
  | nothing
  | established (b : Bool)
  | polled (n : Option Notification)
  | drained (ns : List Notification)
  /-- Whether there was a live handle to deliver it. -/
  | delivered (live : Bool)
  deriving DecidableEq, Repr

/-- What a caller sees of a step: its reply, and the watcher after it. -/
structure Answer where
  reply : Reply
  stage : Stage
  pending : Nat
  honored : EventMask
  deriving DecidableEq, Repr

/-- Calls a watcher. -/
def call (f : Watcher) (world : World) : Call → Reply × Watcher × World
  | .watch r => (f.watch world r).map .established id
  | .start => (.nothing, f.start world)
  | .stop => (.nothing, f.stop world)
  | .poll => (f.poll world).map .polled id
  | .drain => (f.drain world).map .drained id

/-- Takes a step at the time `now`. -/
def step (f : Watcher) (world : World) (now : Nat) : Step → Reply × Watcher × World
  | .call c => f.call world c
  | .happening h =>
    (f.meet world now h).map (fun live => (live.map Reply.delivered).getD .nothing) id

/-- What a caller sees after a step with this reply. -/
def answer (f : Watcher) (reply : Reply) : Answer :=
  ⟨reply, f.backend.stage, f.backend.pending, f.honored⟩

/-- Takes steps one after the other. -/
def run (f : Watcher) (world : World) : List (Nat × Step) → List Answer × Watcher × World
  | [] => ([], f, world)
  | (now, s) :: rest =>
    let (reply, f, world) := f.step world now s
    let (answers, after) := f.run world rest
    (f.answer reply :: answers, after)

end FileWatch.Watcher

import FileWatch.Native.Watch

/-! # Rehearsal — a backend for trying out callers

A rehearsed backend watches nothing. It accepts every target but one, reports three modifications
below it, and writes down how it was called.
-/

namespace FileWatch

/-- The state of a rehearsed backend. -/
structure Rehearsal where
  supported : EventMask
  queue : Queue := Queue.empty
  stage : Stage := .idle
  deriving Repr

namespace Rehearsal

/-- The target that is refused. -/
def refusedPath : Path := Path.ofString "reject"

/-- The names below a target that are reported as modified. -/
def reportedNames : List Path := ["n1", "n2", "n3"].map Path.ofString

/-- Writes the call down and does nothing else. -/
def start (b : Rehearsal) (world : World) : Rehearsal × World := (b, world.note (.called .start))

/-- Discards what is queued. -/
def stop (b : Rehearsal) (world : World) : Rehearsal × World :=
  ({ b with queue := Queue.empty, stage := .idle }, world.note (.called .stop))

/-- Accepts any target but the refused one, and queues its modifications. -/
def watch (b : Rehearsal) (world : World) (r : WatchRequest) : Bool × Rehearsal × World :=
  let world := world.note (.called (.watch r))
  if r.path == refusedPath then (false, b, world)
  else
    let batch := reportedNames.map fun n => ⟨.modified, r.path.join n⟩
    (true, { b with queue := b.queue.extend batch, stage := .running }, world)

/-- Takes the oldest notification. -/
def poll (b : Rehearsal) : Option Notification × Rehearsal :=
  (b.queue.poll.1, { b with queue := b.queue.poll.2 })

end Rehearsal

end FileWatch

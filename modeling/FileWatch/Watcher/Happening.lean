import FileWatch.Disk.Edit
import FileWatch.Watcher

/-! # Happening — what goes on around a watcher

Between the calls of a watcher the disk changes, native handles deliver events and failures, and
the next native calls may be bound to fail. A `Happening` is one of these.
-/

namespace FileWatch

/-- Something that goes on around a watcher. -/
inductive Happening where
  | edit (e : Edit)
  /-- The live handle delivers an event. -/
  | event (e : NativeEvent)
  /-- The live handle reports a failure. -/
  | failure (e : NativeError)
  /-- The next attempt to open a handle will fail. -/
  | openFault (e : NativeError)
  /-- The next attempt to register a path will fail. -/
  | registerFault (e : NativeError)
  /-- The live handle goes silent. -/
  | lose
  | nothing
  deriving DecidableEq, Repr

/-- A happening where no watcher has a live handle. -/
def World.meet (world : World) : Happening → World
  | .edit e => { world with disk := world.disk.edit e }
  | .openFault e => { world with openFault := some e }
  | .registerFault e => { world with registerFault := some e }
  | .event _ | .failure _ | .lose | .nothing => world

/-- A happening at the time `now`. The answer of one that concerns the live handle says whether
there is one. -/
def Watcher.meet (f : Watcher) (world : World) (now : Nat) :
    Happening → Option Bool × Watcher × World
  | .event e =>
    let (live, f, world) := f.deliver world now e
    (some live, f, world)
  | .failure e =>
    let (live, f, world) := f.deliverError world e
    (some live, f, world)
  | .lose =>
    let (live, f) := f.lose
    (some live, f, world)
  | h => (none, f, world.meet h)

end FileWatch

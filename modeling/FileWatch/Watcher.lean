import FileWatch.Watcher.Backend

/-! # Watcher — watching one target at a time

A `Watcher` is what callers use: it watches one file or directory through a backend, hands out the
notifications, and says which of the requested classes of change the backend honors.
-/

namespace FileWatch

/-- A backend, and the classes of change that the latest watch reports. -/
structure Watcher where
  backend : Backend
  honored : EventMask := EventMask.empty
  deriving Repr

namespace Watcher

/-- A watcher that was never used. -/
def ofBackend (b : Backend) : Watcher := { backend := b }

/-- The watcher on the backend of this system. -/
def standard : Watcher := ofBackend Backend.standard

/-- Replaces the current watch, and discards what is queued for it. The answer says whether the new
watch is established. -/
def watch (f : Watcher) (world : World) (r : WatchRequest) : Bool × Watcher × World :=
  let (b, world) := f.backend.stop world
  let (established, b, world) := b.watch world r
  let honored := if established then r.events &&& b.supported else EventMask.empty
  (established, { backend := b, honored }, world)

/-- Goes on with a stopped watch. -/
def start (f : Watcher) (world : World) : Watcher × World :=
  let (b, world) := f.backend.start world
  ({ f with backend := b }, world)

/-- Stops the watch and discards what is queued. -/
def stop (f : Watcher) (world : World) : Watcher × World :=
  let (b, world) := f.backend.stop world
  ({ f with backend := b }, world)

/-- Takes the oldest notification. -/
def poll (f : Watcher) (world : World) : Option Notification × Watcher × World :=
  let (n, b, world) := f.backend.poll world
  (n, { f with backend := b }, world)

/-- Takes everything that waits, oldest first. -/
def drain (f : Watcher) (world : World) : List Notification × Watcher × World :=
  let (ns, b, world) := f.backend.drain world
  (ns, { f with backend := b }, world)

/-- The live handle, if there is one, delivers an event. -/
def deliver (f : Watcher) (world : World) (now : Nat) (e : NativeEvent) :
    Bool × Watcher × World :=
  let (live, b, world) := f.backend.deliver world now e
  (live, { f with backend := b }, world)

/-- The live handle, if there is one, reports a failure. -/
def deliverError (f : Watcher) (world : World) (e : NativeError) : Bool × Watcher × World :=
  let (live, b, world) := f.backend.deliverError world e
  (live, { f with backend := b }, world)

/-- The live handle, if there is one, goes silent. -/
def lose (f : Watcher) : Bool × Watcher :=
  let (live, b) := f.backend.lose
  (live, { f with backend := b })

end Watcher

end FileWatch

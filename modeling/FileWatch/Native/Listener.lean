import FileWatch.Debouncer
import FileWatch.Native.Error
import FileWatch.RenameHistory
import FileWatch.Reporting

/-! # Listener — what becomes of an event

A listener belongs to one native handle. It turns the events that the handle delivers into
notifications, drops combined renames whose halves it has seen, and lets its debouncer hold back
repeated modifications.
-/

namespace FileWatch

/-- The filters of one native handle. -/
structure Listener where
  scope : Scope
  /-- The classes of change that are asked for and can be observed. -/
  events : EventMask
  debouncer : Debouncer
  renames : RenameHistory := RenameHistory.empty
  /-- Whether the handle still delivers. -/
  connected : Bool := true
  deriving Repr

namespace Listener

/-- The listener of a handle that was just opened. -/
def fresh (scope : Scope) (events : EventMask) (debounce : Duration) : Listener :=
  { scope, events, debouncer := Debouncer.ofWindow debounce }

/-- What is to be queued for an event that arrives at the time `now`. -/
def handle (l : Listener) (d : Disk) (now : Nat) (e : NativeEvent) :
    List Notification × Listener :=
  let (duplicate, renames) := l.renames.record e
  if duplicate then ([], { l with renames })
  else
    let (batch, debouncer) := l.debouncer.offerAll now (notificationsOf d l.events l.scope e)
    (batch, { l with renames, debouncer })

end Listener

/-- Whether an error says that the handle on the root of the scope tells nothing more. -/
def NativeError.losesRoot (scope : Scope) (e : NativeError) : Bool :=
  e.cause == .watchNotFound || e.paths.any fun p => p.same scope.root

end FileWatch

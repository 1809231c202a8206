import FileWatch.Disk
import FileWatch.Native.Error
import FileWatch.Notification

/-! # World — what surrounds a watch

A `World` is what a watch depends on besides its own state: the disk, and whether the operating
system will refuse the next native handle. It also keeps a journal of what a watch does there and
what it has to tell its log.
-/

namespace FileWatch

/-- A request that a backend was handed, in the order of its calls. -/
inductive BackendCall where
  | start
  | stop
  | watch (r : WatchRequest)
  deriving DecidableEq, Repr

/-- An entry of the journal. -/
inductive JournalEntry where
  /-- A native handle was opened. -/
  | opened
  | openFailed
  /-- A path was registered on the handle. -/
  | registered (path : Path) (recursive : Bool)
  | registerFailed (path : Path) (recursive : Bool)
  /-- A native handle was closed. -/
  | closed
  /-- Why a watch could not be established. -/
  | refused (error : WatchError)
  /-- What a native handle reported as its failure. -/
  | reported (error : NativeError)
  /-- Events were lost before one that arrived. -/
  | overflowed
  /-- A rehearsed backend was called. -/
  | called (call : BackendCall)
  deriving DecidableEq, Repr

/-- The log line for events that were lost. -/
def overflowWarning : String := "native event queue overflowed, some changes were missed"

/-- The disk, the failures that the next native handle will meet, and the journal. -/
structure World where
  disk : Disk
  /-- The failure of the next attempt to open a handle. -/
  openFault : Option NativeError := none
  /-- The failure of the next attempt to register a path. -/
  registerFault : Option NativeError := none
  /-- Oldest entry first. -/
  journal : List JournalEntry := []
  deriving DecidableEq, Repr

namespace World

/-- Adds an entry to the journal. -/
def note (w : World) (e : JournalEntry) : World := { w with journal := w.journal ++ [e] }

/-- Opens a native handle on a root. A handle on which the root cannot be registered is closed at
once. Each failure happens once. -/
def acquire (w : World) (root : Path) (recursive : Bool) : Option NativeError × World :=
  match w.openFault with
  | some e => (some e, { w with openFault := none }.note .openFailed)
  | none =>
    match w.registerFault with
    | some e =>
      (some e, (({ w with registerFault := none }.note .opened).note
        (.registerFailed root recursive)).note .closed)
    | none => (none, (w.note .opened).note (.registered root recursive))

end World

end FileWatch

import FileWatch.Clock
import FileWatch.EventMask
import FileWatch.Path

/-! # Notification — what a watch asks for and what it reports

A `WatchRequest` names a target, the classes of change asked for and the options of the watch. A
`Notification` reports one change of one path.
-/

namespace FileWatch

/-- The ways a path can change. -/
inductive ChangeKind where
  | added
  | removed
  | modified
  /-- The old name of a renamed entry. -/
  | renamedFrom
  /-- The new name of a renamed entry. -/
  | renamedTo
  deriving DecidableEq, Repr

namespace ChangeKind

/-- The kinds, in the order in which they are listed to a reader. -/
def all : List ChangeKind := [added, removed, modified, renamedFrom, renamedTo]

/-- The name of the kind. -/
def name : ChangeKind → String
  | added => "added"
  | removed => "removed"
  | modified => "modified"
  | renamedFrom => "renamed_from"
  | renamedTo => "renamed_to"

/-- The kind of a name. -/
def ofName? (s : List Char) : Option ChangeKind := all.find? fun k => k.name.toList == s

/-- Whether the change is one of names and not of content. -/
def isNameChange (k : ChangeKind) : Bool := k != modified

theorem ofName?_name (k : ChangeKind) : ofName? k.name.toList = some k := by
  cases k <;> decide

end ChangeKind

/-- One change of one path. -/
structure Notification where
  kind : ChangeKind
  path : Path
  deriving DecidableEq, Repr

/-- The options of a watch. -/
structure WatchOptions where
  /-- Whether the whole tree below the target is watched. -/
  recursive : Bool := false
  /-- The size of the native buffer that is asked for, in bytes. -/
  bufferSize : UInt32 := 16384
  /-- How long after a reported modification of a path further ones are held back. -/
  debounce : Duration := Duration.zero
  deriving DecidableEq, Repr

/-- What to watch, for which changes, and how. -/
structure WatchRequest where
  path : Path
  events : EventMask
  options : WatchOptions
  deriving DecidableEq, Repr

end FileWatch

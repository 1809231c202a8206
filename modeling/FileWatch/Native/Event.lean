import FileWatch.Path

/-! # Event — what a native handle delivers

The operating system reports changes as events of a nested `EventKind`, each with the paths that
it is about, and failures as a `NativeError`.
-/

namespace FileWatch

/-- How an open file was used. -/
inductive AccessMode where
  | any
  | execute
  | read
  | write
  | other
  deriving DecidableEq, Repr

/-- Uses of an entry that leave it as it is. -/
inductive AccessKind where
  | any
  | read
  | opened (mode : AccessMode)
  | closed (mode : AccessMode)
  | other
  deriving DecidableEq, Repr

/-- What sort of entry came or went. -/
inductive EntryKind where
  | any
  | file
  | folder
  | other
  deriving DecidableEq, Repr

/-- What changed in an entry's content. -/
inductive DataKind where
  | any
  | size
  | content
  | other
  deriving DecidableEq, Repr

/-- What changed about an entry. -/
inductive MetadataKind where
  | any
  | accessTime
  | writeTime
  | permissions
  | ownership
  | extended
  | other
  deriving DecidableEq, Repr

/-- Which side of a rename an event is about. -/
inductive RenameSide where
  | any
  | newName
  | oldName
  /-- The old name and the new one, in this order. -/
  | both
  | other
  deriving DecidableEq, Repr

/-- Changes of an entry that was there. -/
inductive ModifyKind where
  | any
  | data (kind : DataKind)
  | metadata (kind : MetadataKind)
  | name (side : RenameSide)
  | other
  deriving DecidableEq, Repr

/-- What an event reports. -/
inductive EventKind where
  | any
  | access (kind : AccessKind)
  | create (kind : EntryKind)
  | modify (kind : ModifyKind)
  | remove (kind : EntryKind)
  | other
  deriving DecidableEq, Repr

/-- An event of a native handle. -/
structure NativeEvent where
  kind : EventKind
  paths : List Path
  /-- The number that the events of one rename share. -/
  tracker : Option Nat := none
  /-- Whether events before this one were lost. -/
  rescan : Bool := false
  deriving DecidableEq, Repr

/-- Whether the event says that an entry went away or has another name. -/
def EventKind.removesOrRenames : EventKind → Bool
  | .remove _ => true
  | .modify (.name _) => true
  | _ => false

end FileWatch

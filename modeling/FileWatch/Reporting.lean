import FileWatch.Disk
import FileWatch.Native.Event
import FileWatch.Notification
import FileWatch.Scope

/-! # Reporting — native events as notifications

`notificationsOf` is what a watch says of an event. A path of the event is reported when it lies in
the scope and the mask asks for the change: a change of content needs one of the classes it belongs
to, a change of names the class of files or of directories. Which of these it is comes from the
event or else from the disk; for an entry that is gone either will do.
-/

namespace FileWatch

/-- How the paths of an event are reported. -/
inductive Reporting where
  /-- Each path as a change of the same kind. -/
  | each (kind : ChangeKind)
  /-- The first path as an old name, the second as a new one. -/
  | renamePair
  deriving DecidableEq, Repr

/-- What a mask needs for a change to be reported. -/
inductive Requirement where
  /-- The class of files or of directories, by what the entry is. -/
  | nameOfEntry
  /-- One of these classes. -/
  | anyOf (classes : EventMask)
  deriving DecidableEq, Repr

/-- The classes that a change of metadata belongs to. -/
def MetadataKind.classes : MetadataKind → EventMask
  | writeTime => .ofClasses [.lastWrite]
  | accessTime => .ofClasses [.lastAccess]
  | permissions | ownership => .ofClasses [.attributes, .security]
  | extended | any | other => .ofClasses [.attributes, .lastWrite, .security]

/-- How an event of a kind is reported and what it needs, if it is reported at all. Opening a file
changes nothing, and closing one follows events that have told of its changes. -/
def EventKind.reporting? : EventKind → Option (Reporting × Requirement)
  | create _ => some (.each .added, .nameOfEntry)
  | remove _ => some (.each .removed, .nameOfEntry)
  | modify (.name .oldName) => some (.each .renamedFrom, .nameOfEntry)
  | modify (.name .both) => some (.renamePair, .nameOfEntry)
  | modify (.name _) => some (.each .renamedTo, .nameOfEntry)
  | modify (.data _) => some (.each .modified, .anyOf (.ofClasses [.size, .lastWrite]))
  | modify (.metadata m) => some (.each .modified, .anyOf m.classes)
  | modify .any | modify .other => some (.each .modified, .anyOf .contentChanges)
  | access .read | access .any | access .other =>
    some (.each .modified, .anyOf (.ofClasses [.lastAccess]))
  | access (.opened _) | access (.closed _) => none
  | any | other => none

/-- The classes of which one is needed to report a change of names of the entry at a path. -/
def nameClasses (d : Disk) (kind : EventKind) (p : Path) : EventMask :=
  match kind with
  | .create .file | .remove .file => .ofClasses [.fileName]
  | .create .folder | .remove .folder => .ofClasses [.dirName]
  | _ =>
    match d.linkStatus p with
    | .ok e => if e.isDirectory then .ofClasses [.dirName] else .ofClasses [.fileName]
    | .error _ => .nameChanges

/-- Whether a mask asks for a change. The disk is looked at only where the mask tells files from
directories. -/
def isAskedFor (d : Disk) (mask : EventMask) (kind : EventKind) (p : Path) : Requirement → Bool
  | .anyOf classes => mask.intersects classes
  | .nameOfEntry =>
    if mask.contains .nameChanges then true
    else if !mask.intersects .nameChanges then false
    else mask.intersects (nameClasses d kind p)

/-- What a watch with this mask and scope says of an event. -/
def notificationsOf (d : Disk) (mask : EventMask) (scope : Scope) (e : NativeEvent) :
    List Notification :=
  match e.kind.reporting? with
  | none => []
  | some (reporting, requirement) =>
    let kept (p : Path) : Bool := scope.contains p && isAskedFor d mask e.kind p requirement
    match reporting with
    | .each kind => (e.paths.filter kept).map fun p => ⟨kind, p⟩
    | .renamePair =>
      ((e.paths[0]?.filter kept).map fun p => ⟨.renamedFrom, p⟩).toList
        ++ ((e.paths[1]?.filter kept).map fun p => ⟨.renamedTo, p⟩).toList

/-- Whether an event says that the root of the scope went away or has another name, after which
the handle that was opened on it tells nothing more. -/
def invalidatesRoot (scope : Scope) (e : NativeEvent) : Bool :=
  e.kind.removesOrRenames && e.paths.any fun p => p.same scope.root

end FileWatch

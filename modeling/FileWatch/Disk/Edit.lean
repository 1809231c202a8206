import FileWatch.Disk

/-! # Edit — changes of the disk

An `Edit` is one change that a program can make to the disk. An edit that the operating system
would refuse leaves the disk as it is.
-/

namespace FileWatch

/-- One change of the disk. -/
inductive Edit where
  /-- Creates or replaces a file. -/
  | write (path : Path) (content : List UInt8) (modified : Moment)
  | append (path : Path) (content : List UInt8) (modified : Moment)
  /-- Sets the time of modification only. -/
  | touch (path : Path) (modified : Moment)
  /-- Removes a file or a link. -/
  | remove (path : Path)
  /-- Creates a directory and those on the way to it. -/
  | makeDirectory (path : Path)
  /-- Removes a link, or a directory with everything below. What is below goes first, and the
  directory only if the path names it even then. -/
  | removeTree (path : Path)
  | rename (path newPath : Path)
  | link (path target : Path)
  deriving DecidableEq, Repr

namespace Disk

/-- Puts an entry at a place. -/
def put (d : Disk) (place : Place) (e : Entry) : Disk :=
  { d with entries := (place, e) :: d.entries.filter fun x => x.1 != place }

/-- Removes the entries at some places. -/
def discard (d : Disk) (gone : Place → Bool) : Disk :=
  { current := match d.current with
      | .here p => if gone p then .removed p.dropLast else .here p
      | .removed parent => .removed parent
    entries := d.entries.filter fun x => !gone x.1 }

/-- Removes the entry at a place and everything below. -/
def erase (d : Disk) (place : Place) : Disk := d.discard place.isPrefixOf

/-- Whether a place is properly below another. -/
def isBelow (place p : Place) : Bool := place.isPrefixOf p && p != place

/-- Removes everything below a place. -/
def clear (d : Disk) (place : Place) : Disk := d.discard (isBelow place)

/-- Where something at or below a place is after the move to another place. -/
def carried (place target p : Place) : Place :=
  if place.isPrefixOf p then target ++ p.drop place.length else p

/-- Moves the entry at a place, and everything below, to another place, from which it removes what
was there. -/
def move (d : Disk) (place target : Place) : Disk :=
  let d := d.erase target
  { current := match d.current with
      | .here p => .here (carried place target p)
      | .removed parent => .removed (carried place target parent)
    entries := d.entries.map fun x => (carried place target x.1, x.2) }

/-- Whether nothing is below a place. -/
def isEmptyAt (d : Disk) (place : Place) : Bool := !d.entries.any fun x => isBelow place x.1

/-- Whether an entry may take the place of another: a directory only that of an empty directory,
and nothing else that of a directory. -/
def mayReplace (d : Disk) (e : Entry) (target : Place) (old : Entry) : Bool :=
  if e.isDirectory then old.isDirectory && d.isEmptyAt target else !old.isDirectory

/-- What a path names in the directory that it leads to before its last stretch. Separators at the
end do not count, a link there is not followed, and `.` and `..` name nothing. -/
def nameAt (d : Disk) (p : Path) : Walk :=
  match pathFault? p with
  | some fault => .refused fault
  | none =>
    if p.endsInName then d.walkPath { follow := false } p.withoutSlashes else .refused .notFound

/-- Removes an empty directory. -/
def removeDirectory (d : Disk) (p : Path) : Disk :=
  match d.nameAt p with
  | .found place .directory => if d.isEmptyAt place then d.erase place else d
  | _ => d

/-- Creates the directories that are missing on the way of names from a place. A link that leads to
nothing is not a directory to create. -/
def makeAlong (d : Disk) (place : Place) : List Name → Disk
  | [] => d
  | n :: rest =>
    match d.walk { follow := true } linkLimit place [n] with
    | .found next _ => d.makeAlong next rest
    | .absent next _ =>
      if next == place ++ [n] then (d.put next .directory).makeAlong next rest else d
    | _ => d

/-- The names to create directories for. The directory before a `.` at the end is not one of them:
it has to be there. -/
def namesToMake (p : Path) (names : List Name) : List Name :=
  let names := names.filter Path.isName
  if p.lastPiece? == some Path.dot then names.dropLast else names

/-- Creates the directories that are missing on the way of a path. -/
def makeDirectories (d : Disk) (p : Path) : Disk :=
  match d.locate false p, d.start p with
  | .absent _ _, .ok (place, names) => d.makeAlong place (namesToMake p names)
  | .refused .notFound, .ok (place, names) => d.makeAlong place (namesToMake p names)
  | _, _ => d

/-- Makes one change. -/
def edit (d : Disk) : Edit → Disk
  | .write path content modified =>
    match d.locate true path with
    | .found place (.file _ _) => d.put place (.file content modified)
    | .absent place false => d.put place (.file content modified)
    | _ => d
  | .append path content modified =>
    match d.locate true path with
    | .found place (.file before _) => d.put place (.file (before ++ content) modified)
    | _ => d
  | .touch path modified =>
    match d.locate true path with
    | .found place (.file content _) => d.put place (.file content modified)
    | _ => d
  | .remove path =>
    match d.locate false path with
    | .found place e => if e.isDirectory then d else d.erase place
    | _ => d
  | .makeDirectory path => d.makeDirectories path
  | .removeTree path =>
    match d.locate false path with
    | .found place (.link _) => d.erase place
    | .found place .directory => (d.clear place).removeDirectory path
    | _ => d
  | .rename path newPath =>
    let asDirectory := path.endsInSlash || newPath.endsInSlash
    match d.nameAt path, d.nameAt newPath with
    | .found place e, .found target old =>
      if (asDirectory && !e.isDirectory) || place.isPrefixOf target || !d.mayReplace e target old
      then d
      else d.move place target
    | .found place e, .absent target _ =>
      if (asDirectory && !e.isDirectory) || place.isPrefixOf target then d else d.move place target
    | _, _ => d
  | .link path target =>
    match d.locate false path with
    | .absent place false =>
      if (pathFault? target).isSome then d else d.put place (.link target)
    | _ => d

end Disk

end FileWatch

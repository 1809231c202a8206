import FileWatch.Clock
import FileWatch.Path

/-! # Disk — a tree of files, directories and symbolic links

A `Disk` keeps the entries below the root by their `Place`, the names on the way to them, together
with the directory from which relative paths start. `walk` follows names one by one through
directories and links; everything else that looks at a path goes through it.
-/

namespace FileWatch

/-- Where an entry is: the names that lead to it from the root. -/
abbrev Place := List Name

/-- What can be at a place. The size and the time of modification of a directory are not modelled:
they depend on the file system, and on what is done in the directory. -/
inductive Entry where
  | file (content : List UInt8) (modified : Moment)
  | directory
  /-- A symbolic link, with its text. -/
  | link (target : Path)
  deriving DecidableEq, Repr

/-- Whether an entry is a directory. -/
def Entry.isDirectory : Entry → Bool
  | directory => true
  | _ => false

/-- Whether an entry is a regular file. -/
def Entry.isFile : Entry → Bool
  | file _ _ => true
  | _ => false

/-- Why a path cannot be used. -/
inductive DiskFault where
  | notFound
  | notADirectory
  | isADirectory
  | nameTooLong
  | tooManyLinks
  | nulByte
  | notText
  deriving DecidableEq, Repr

/-- The wording of a fault. -/
def DiskFault.message : DiskFault → String
  | notFound => "No such file or directory (os error 2)"
  | notADirectory => "Not a directory (os error 20)"
  | isADirectory => "Is a directory (os error 21)"
  | nameTooLong => "File name too long (os error 36)"
  | tooManyLinks => "Too many levels of symbolic links (os error 40)"
  | nulByte => "file name contained an unexpected NUL byte"
  | notText => "stream did not contain valid UTF-8"

/-- The directory from which relative paths start. It stays in use after its removal: it is empty
then and no path leads to it, also where its place is taken again. -/
inductive CurrentDirectory where
  | here (place : Place)
  | removed (parent : Place)
  deriving DecidableEq, Repr

/-- A tree of entries, and the directory from which relative paths start. -/
structure Disk where
  current : CurrentDirectory := .here []
  entries : List (Place × Entry) := []
  deriving DecidableEq, Repr

/-- Where following a path ends. -/
inductive Walk where
  | found (place : Place) (entry : Entry)
  /-- Nothing is there, in a directory that exists. A separator behind the last name asks for a
  directory. -/
  | absent (place : Place) (asDirectory : Bool)
  /-- The current directory, which was removed. -/
  | detached
  | refused (fault : DiskFault)
  deriving DecidableEq, Repr

/-- The entry where a walk ends. -/
def Walk.entry : Walk → Except DiskFault Entry
  | found _ e => .ok e
  | absent _ _ => .error .notFound
  | detached => .ok .directory
  | refused fault => .error fault

namespace Disk

/-- The length of the longest name. -/
def longestName : Nat := 255

/-- The length of the longest path that the operating system takes. -/
def longestPath : Nat := 4095

/-- How many links one path may pass. -/
def linkLimit : Nat := 40

/-- The entry at a place. The root is always a directory. -/
def entry? (d : Disk) (place : Place) : Option Entry :=
  if place.isEmpty then some .directory else d.entries.lookup place

/-- Whether a directory is at a place. -/
def isDirectoryAt (d : Disk) (place : Place) : Bool := d.entry? place == some .directory

/-- How names are followed. -/
structure Manner where
  /-- Whether a link in the last position is followed. -/
  follow : Bool
  /-- Whether each entry on the way is looked up by its absolute path, which must not be too long
  for that. -/
  isStepwise : Bool := false
  deriving DecidableEq, Repr

/-- Whether a place is too long to be looked up by its absolute path. -/
def isFar (place : Place) : Bool := (Path.ofNames place).bytes.length > longestPath

/-- Whether names can only follow a directory: of what stands behind separators, the first name is
`..`, or there is none. -/
def needDirectory : List Name → Bool
  | [] => false
  | n :: rest =>
    if n.isEmpty then rest.isEmpty || needDirectory rest
    else if n == Path.dot then rest.isEmpty || needDirectory rest
    else n == Path.dotDot

/-- Follows names from a place. Empty names and `.` stay where they are and `..` goes up, all three
from directories only. At a link that is followed, `onLink` goes on from where its text starts,
with the names of its text and the rest. Stepwise, what must be a directory is looked up with a
separator at the end. -/
def walkNames (d : Disk) (m : Manner) (onLink : Place → List Name → Walk) (place : Place) :
    List Name → Walk
  | [] =>
    match d.entry? place with
    | some e => .found place e
    | none => .absent place false
  | n :: rest =>
    if !d.isDirectoryAt place then .refused .notADirectory
    else if !Path.isName n then d.walkNames m onLink place rest
    else if n == Path.dotDot then d.walkNames m onLink place.dropLast rest
    else if n.length > longestName then .refused .nameTooLong
    else if m.isStepwise && isFar (place ++ [n]) then .refused .nameTooLong
    else match d.entry? (place ++ [n]) with
      | none =>
        if rest.all List.isEmpty then .absent (place ++ [n]) (!rest.isEmpty)
        else .refused .notFound
      | some (.link target) =>
        if rest.isEmpty && !m.follow then .found (place ++ [n]) (.link target)
        else onLink (if target.isAbsolute then [] else place) (target.pieces ++ rest)
      | some _ =>
        if m.isStepwise && needDirectory rest && isFar (place ++ [n, []]) then
          .refused .nameTooLong
        else d.walkNames m onLink (place ++ [n]) rest

/-- Follows names from a place, through a limited number of links. -/
def walk (d : Disk) (m : Manner) : Nat → Place → List Name → Walk
  | 0 => d.walkNames m fun _ _ => .refused .tooManyLinks
  | links + 1 => d.walkNames m (d.walk m links)

/-- The place from which a path is followed and the names to follow from there, or where it ends at
once: a current directory that was removed is empty, and only `..` leads out of it. -/
def start (d : Disk) (p : Path) : Except Walk (Place × List Name) :=
  if p.isAbsolute then .ok ([], p.pieces)
  else match d.current with
    | .here place => .ok (place, p.pieces)
    | .removed parent =>
      match p.pieces.dropWhile fun n => !Path.isName n with
      | [] => .error .detached
      | n :: rest => if n == Path.dotDot then .ok (parent, rest) else .error (.refused .notFound)

/-- Follows a path of any length. -/
def walkPath (d : Disk) (m : Manner) (p : Path) : Walk :=
  match d.start p with
  | .ok (place, names) => d.walk m linkLimit place names
  | .error w => w

/-- Why the operating system does not take a path at all. -/
def pathFault? (p : Path) : Option DiskFault :=
  if p.bytes.contains 0 then some .nulByte
  else if p.isEmpty then some .notFound
  else if p.bytes.length > longestPath then some .nameTooLong
  else none

/-- Follows a path. -/
def locate (d : Disk) (follow : Bool) (p : Path) : Walk :=
  match pathFault? p with
  | some fault => .refused fault
  | none => d.walkPath { follow } p

/-- The entry that a path leads to. -/
def status (d : Disk) (p : Path) : Except DiskFault Entry := (d.locate true p).entry

/-- The entry that a path names, which may itself be a link. -/
def linkStatus (d : Disk) (p : Path) : Except DiskFault Entry := (d.locate false p).entry

/-- Whether a path leads to anything. -/
def isThere (d : Disk) (p : Path) : Bool := (d.status p).toOption.isSome

/-- Whether a path leads to a regular file. -/
def isFileAt (d : Disk) (p : Path) : Bool := ((d.status p).toOption.map Entry.isFile).getD false

/-- The path of the current directory, if any. -/
def currentPath? (d : Disk) : Option Path :=
  match d.current with
  | .here place => some (Path.ofNames place)
  | .removed _ => none

/-- The absolute path without links and dots that leads to the same entry, found step by step. A
relative path has none once the current directory is removed. -/
def canonical (d : Disk) (p : Path) : Except DiskFault Path :=
  if p.bytes.contains 0 then .error .nulByte
  else if p.isEmpty || (!p.isAbsolute && d.currentPath?.isNone) then .error .notFound
  else match d.walkPath { follow := true, isStepwise := true } p with
    | .found place _ => .ok (Path.ofNames place)
    | .refused fault => .error fault
    | _ => .error .notFound

/-- The canonical path where there is one; otherwise the path as given, put after the current
directory if it is relative and the current directory has a path. -/
def resolve (d : Disk) (p : Path) : Path :=
  match d.canonical p with
  | .ok c => c
  | .error _ => (d.currentPath?.map (·.join p)).getD p

/-- The content of the file that a path leads to. -/
def read (d : Disk) (p : Path) : Except DiskFault (List UInt8) :=
  match d.status p with
  | .ok (.file content _) => .ok content
  | .ok _ => .error .isADirectory
  | .error fault => .error fault

end Disk

end FileWatch

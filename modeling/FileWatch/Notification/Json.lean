import FileWatch.Json.Reader
import FileWatch.Notification

/-! # Json — notifications as JSON

A notification is written as one line, an object with its kind and its path; a path that is no
text has no such form. Reading takes the object in any spelling, with members of other names
passed over, and also the pair of kind and path as an array.
-/

namespace FileWatch

/-- Why a JSON value is no kind of change. -/
inductive ChangeKind.JsonFault where
  | unknownName (name : List Char)
  | notAName
  deriving DecidableEq, Repr

/-- The wording of a fault. -/
def ChangeKind.JsonFault.message : ChangeKind.JsonFault → String
  | unknownName name =>
    "unknown variant `" ++ String.ofList name ++ "`, expected one of "
      ++ ", ".intercalate (ChangeKind.all.map fun k => "`" ++ k.name ++ "`")
  | notAName => "a kind of change is a name"

/-- Reads a kind of change: its name, or an object whose one member is of that name and null. -/
def ChangeKind.ofJson : Json.Value → Except ChangeKind.JsonFault ChangeKind
  | .string (some s) =>
    match ChangeKind.ofName? s with
    | some k => .ok k
    | none => .error (.unknownName s)
  | .object [(some s, .null)] =>
    match ChangeKind.ofName? s with
    | some k => .ok k
    | none => .error .notAName
  | _ => .error .notAName

/-- The JSON form of a kind of change. -/
def ChangeKind.toJson (k : ChangeKind) : List Char := Json.quote k.name.toList

namespace Notification

/-- The JSON form of a notification, unless its path is no text. -/
def toJson? (n : Notification) : Option (List Char) :=
  n.path.text?.map fun path =>
    ['\x7b'] ++ Json.quote "kind".toList ++ [':'] ++ n.kind.toJson ++ [',']
      ++ Json.quote "path".toList ++ [':'] ++ Json.quote path ++ ['\x7d']

/-- Reads a path: a string that has a text. -/
def pathOfJson? : Json.Value → Option Path
  | .string (some s) => some (Path.ofText s)
  | _ => none

/-- The one value among an object's members that bears the name, if there is exactly one. -/
def member? (name : String) (members : List (Option (List Char) × Json.Value)) :
    Option Json.Value :=
  match members.filter fun m => m.1 == some name.toList with
  | [m] => some m.2
  | _ => none

/-- Reads a notification from a JSON value. -/
def ofJson? : Json.Value → Option Notification
  | .object members => do
    if members.any fun m => m.1.isNone then none
    let kind ← (ChangeKind.ofJson (← member? "kind" members)).toOption
    let path ← pathOfJson? (← member? "path" members)
    return ⟨kind, path⟩
  | .array [kind, path] => do
    let kind ← (ChangeKind.ofJson kind).toOption
    let path ← pathOfJson? path
    return ⟨kind, path⟩
  | _ => none

/-- Reads the JSON form of a notification. -/
def parse? (s : List Char) : Option Notification := (Json.parse? s).bind ofJson?

end Notification

end FileWatch

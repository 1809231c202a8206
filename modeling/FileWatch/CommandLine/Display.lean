import FileWatch.CommandLine.Failure
import FileWatch.Notification.Json

/-! # Display — notifications as lines

A notification is shown as a line for people, with its kind in a column of its own, or as a line
of JSON.
-/

namespace FileWatch.CommandLine

/-- The width of the column for kinds. -/
def kindWidth : Nat := 12

/-- A terminal sequence that sets a style. -/
def style (code : String) : String := "\x1b[" ++ code ++ "m"

/-- A text in bold. -/
def bold (s : String) : String := style "1" ++ s ++ style "0"

/-- A text with less weight. -/
def dimmed (s : String) : String := style "2" ++ s ++ style "0"

/-- The color of a kind of change. -/
def color : ChangeKind → String
  | .added => "32"
  | .removed => "31"
  | .modified => "33"
  | .renamedFrom | .renamedTo => "36"

/-- A line for people. -/
def plainLine (n : Notification) (colored : Bool) : String :=
  let label := String.ofList (n.kind.name.toList.rightpad kindWidth ' ')
  (if colored then style (color n.kind) ++ label ++ style "39" else label)
    ++ " " ++ n.path.display

/-- A line of JSON. -/
def jsonLine (n : Notification) : Except Failure String :=
  match n.toJson? with
  | some s => .ok (String.ofList s)
  | none => .error .notText

/-- A line for people or of JSON. -/
def lineOf (json : Bool) (n : Notification) : Except Failure String :=
  if json then jsonLine n else .ok (plainLine n false)

/-- The lines of notifications, up to the first that has none. -/
def linesOf (json : Bool) : List Notification → List String × Option Failure
  | [] => ([], none)
  | n :: ns =>
    match lineOf json n with
    | .error f => ([], some f)
    | .ok line =>
      let (lines, failure) := linesOf json ns
      (line :: lines, failure)

end FileWatch.CommandLine

import FileWatch.EventMask
import FileWatch.Text.Blank

/-! # FlagList — masks as lists of flag names

The notation of the command line: names between commas or bars, in any case, with `-` or `_`
between words. Blank pieces count for nothing, and the first piece that is no name is the error.
-/

namespace FileWatch.EventMask

/-- A piece of a list that names no flag, in its own spelling and trimmed. -/
structure UnknownFlag where
  name : String
  deriving DecidableEq, Repr

/-- A flag name in its standard spelling: upper case, words joined by `_`. -/
def standardSpelling (s : List Char) : List Char :=
  s.map fun c => if c == '-' then '_' else c.toUpper

/-- The mask that a flag name stands for: a class, or `ALL` of them. -/
def ofFlagName? (s : List Char) : Option EventMask :=
  let s := standardSpelling (Text.trim s)
  if s == "ALL".toList then some all else (EventClass.ofName? s).map single

/-- The characters that end a piece of a list. -/
def isSeparator (c : Char) : Bool := c == ',' || c == '|'

/-- Adds the pieces of a list to a mask, up to the first that names no flag. -/
def addFlags : List (List Char) → EventMask → Except UnknownFlag EventMask
  | [], m => .ok m
  | s :: rest, m =>
    if (Text.trim s).isEmpty then addFlags rest m
    else match ofFlagName? s with
      | some flag => addFlags rest (m ||| flag)
      | none => .error ⟨String.ofList (Text.trim s)⟩

/-- Reads a list of flag names. -/
def ofFlagList (s : List Char) : Except UnknownFlag EventMask :=
  addFlags (s.splitOnP isSeparator) empty

end FileWatch.EventMask

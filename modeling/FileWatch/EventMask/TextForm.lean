import FileWatch.EventMask
import FileWatch.Text.Blank
import FileWatch.Text.Hexadecimal

/-! # TextForm — the written form of a mask

The form in which a configuration holds a mask: the names of its classes, lowest bit first, with
` | ` between them, and one hexadecimal number for the bits that stand for no class. `toText`
writes it and `ofText` reads it; reading also allows blanks around the pieces and a number or a
name in any place.
-/

namespace FileWatch.EventMask

/-- Why a text is no mask. -/
inductive TextFault where
  | unknownName
  | badNumber
  | emptyPiece
  deriving DecidableEq, Repr

/-- The wording of a fault. -/
def TextFault.message : TextFault → String
  | unknownName => "unrecognized named flag"
  | badNumber => "invalid hex flag"
  | emptyPiece => "encountered empty flag"

/-- The pieces of the written form. -/
def textPieces (a : EventMask) : List String :=
  let rest := a \ all
  a.classes.map EventClass.name
    ++ if rest.isEmpty then [] else ["0x" ++ String.ofList (Text.hexDigits rest.bits.toNat)]

/-- The written form of a mask. -/
def toText (a : EventMask) : String := " | ".intercalate a.textPieces

/-- The written form as a diagnostic shows it. -/
def debugText (a : EventMask) : String :=
  "EventMask(" ++ (if a.isEmpty then "0x0" else a.toText) ++ ")"

/-- The word that hexadecimal digits spell, of which there must be one, after an optional `+`. -/
def hexWord? (s : List Char) : Option (BitVec 32) :=
  let digits := match s with
    | '+' :: digits => digits
    | digits => digits
  if digits.isEmpty then none
  else match Text.hexNumber? digits with
    | some n => if n < UInt32.size then some (BitVec.ofNat 32 n) else none
    | none => none

/-- Reads one piece of the written form: a number after `0x`, or a name. -/
def ofPiece (s : List Char) : Except TextFault EventMask :=
  match Text.trim s with
  | [] => .error .emptyPiece
  | '0' :: 'x' :: digits =>
    match hexWord? digits with
    | some w => .ok ⟨w⟩
    | none => .error .badNumber
  | name =>
    match EventClass.ofName? name with
    | some c => .ok (single c)
    | none => .error .unknownName

/-- Adds the pieces of the written form to a mask, up to the first fault. -/
def addPieces : List (List Char) → EventMask → Except TextFault EventMask
  | [], m => .ok m
  | s :: rest, m =>
    match ofPiece s with
    | .ok flag => addPieces rest (m ||| flag)
    | .error e => .error e

/-- Reads the written form of a mask. A blank text is the empty mask. -/
def ofText (s : List Char) : Except TextFault EventMask :=
  if (Text.trim s).isEmpty then .ok empty else addPieces (s.splitOn '|') empty

end FileWatch.EventMask

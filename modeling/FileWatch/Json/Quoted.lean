import FileWatch.Text.Hexadecimal

/-! # Quoted — JSON strings

`quote` writes a text as a JSON string on one line: it escapes the quotation mark, the backslash
and the control characters below the space, with the short escape where there is one.
`stringBody?` reads any JSON string after its opening quotation mark.
-/

namespace FileWatch.Json

/-- A character as it stands in a JSON string. -/
def quoteChar (c : Char) : List Char :=
  match c with
  | '"' => ['\\', '"']
  | '\\' => ['\\', '\\']
  | '\x08' => ['\\', 'b']
  | '\x0c' => ['\\', 'f']
  | '\n' => ['\\', 'n']
  | '\r' => ['\\', 'r']
  | '\t' => ['\\', 't']
  | c =>
    if c.toNat < 0x20 then
      ['\\', 'u', '0', '0', Nat.digitChar (c.toNat / 16), Nat.digitChar (c.toNat % 16)]
    else [c]

/-- A text as a JSON string. -/
def quote (s : List Char) : List Char := ['"'] ++ s.flatMap quoteChar ++ ['"']

/-- An element of a JSON string: a character, or half of a surrogate pair. -/
inductive Unit16 where
  | char (c : Char)
  | high (n : Nat)
  | low (n : Nat)
  deriving DecidableEq, Repr

/-- The element that a code unit is. -/
def Unit16.ofCodeUnit (n : Nat) : Unit16 :=
  if 0xD800 ≤ n ∧ n < 0xDC00 then .high n
  else if 0xDC00 ≤ n ∧ n < 0xE000 then .low n
  else .char (Char.ofNat n)

/-- The character of a one-letter escape. -/
def shortEscape? (c : Char) : Option Char :=
  match c with
  | '"' => some '"'
  | '\\' => some '\\'
  | '/' => some '/'
  | 'b' => some '\x08'
  | 'f' => some '\x0c'
  | 'n' => some '\n'
  | 'r' => some '\r'
  | 't' => some '\t'
  | _ => none

/-- Reads the elements of a JSON string up to its closing quotation mark, and returns the text
after it. -/
def stringUnits? : List Char → Option (List Unit16 × List Char)
  | [] => none
  | '"' :: rest => some ([], rest)
  | '\\' :: 'u' :: a :: b :: c :: d :: rest => do
    let n ← Text.hexNumber? [a, b, c, d]
    let (units, rest) ← stringUnits? rest
    return (.ofCodeUnit n :: units, rest)
  | '\\' :: e :: rest => do
    let c ← shortEscape? e
    let (units, rest) ← stringUnits? rest
    return (.char c :: units, rest)
  | c :: rest =>
    if c.toNat < 0x20 ∨ c = '\\' then none
    else do
      let (units, rest) ← stringUnits? rest
      return (.char c :: units, rest)

/-- The text of a string's elements, if each half of a surrogate pair meets its other half. -/
def textOfUnits? : List Unit16 → Option (List Char)
  | [] => some []
  | .char c :: rest => (textOfUnits? rest).map (c :: ·)
  | .high h :: .low l :: rest =>
    (textOfUnits? rest).map
      (Char.ofNat (0x10000 + (h - 0xD800) * 0x400 + (l - 0xDC00)) :: ·)
  | .high _ :: _ => none
  | .low _ :: _ => none

/-- Reads a JSON string after its opening quotation mark: its text, if it has one, and the rest of
the input. -/
def stringBody? (s : List Char) : Option (Option (List Char) × List Char) :=
  (stringUnits? s).map fun r => (textOfUnits? r.1, r.2)

end FileWatch.Json

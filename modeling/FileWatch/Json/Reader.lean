import FileWatch.Json.Quoted
import FileWatch.Json.Value

/-! # Reader — JSON texts

`parse?` reads a text that holds one JSON value and blanks around it. The mutual readers are
bounded by a number of calls that no input can exceed: each pair of calls takes a character.
-/

namespace FileWatch.Json

/-- The four blanks of JSON. -/
def isBlank (c : Char) : Bool := c == ' ' || c == '\n' || c == '\t' || c == '\r'

/-- Drops leading blanks. -/
def skipBlanks (s : List Char) : List Char := s.dropWhile isBlank

/-- The digits that a text starts with, of which there must be one, and the rest. -/
def digits? (s : List Char) : Option (List Char × List Char) :=
  let digits := s.takeWhile Char.isDigit
  if digits.isEmpty then none else some (digits, s.dropWhile Char.isDigit)

/-- The whole part of a number: `0` alone, or digits that do not start with it. -/
def wholePart? (s : List Char) : Option (List Char × List Char) :=
  match s with
  | '0' :: rest =>
    match rest with
    | c :: _ => if c.isDigit then none else some (['0'], rest)
    | [] => some (['0'], rest)
  | s => digits? s

/-- The decimals of a number, if it has any. -/
def decimals? (s : List Char) : Option (List Char × List Char) :=
  match s with
  | '.' :: rest => (digits? rest).map fun r => ('.' :: r.1, r.2)
  | s => some ([], s)

/-- The exponent of a number, if it has one. -/
def exponent? (s : List Char) : Option (List Char × List Char) :=
  match s with
  | e :: rest =>
    if e == 'e' || e == 'E' then
      match rest with
      | sign :: rest' =>
        if sign == '+' || sign == '-' then
          (digits? rest').map fun r => (e :: sign :: r.1, r.2)
        else (digits? rest).map fun r => (e :: r.1, r.2)
      | [] => none
    else some ([], s)
  | [] => some ([], [])

/-- A number without its sign. -/
def magnitude? (s : List Char) : Option (List Char × List Char) := do
  let (whole, s) ← wholePart? s
  let (decimals, s) ← decimals? s
  let (exponent, s) ← exponent? s
  return (whole ++ decimals ++ exponent, s)

/-- The value that starts with the given word. -/
def word? (s : List Char) : Option (Value × List Char) :=
  match s with
  | 'n' :: 'u' :: 'l' :: 'l' :: rest => some (.null, rest)
  | 't' :: 'r' :: 'u' :: 'e' :: rest => some (.bool true, rest)
  | 'f' :: 'a' :: 'l' :: 's' :: 'e' :: rest => some (.bool false, rest)
  | '-' :: rest => (magnitude? rest).map fun r => (.number ('-' :: r.1), r.2)
  | s => (magnitude? s).map fun r => (.number r.1, r.2)

mutual

/-- Reads a value, after blanks. -/
def value? : Nat → List Char → Option (Value × List Char)
  | 0, _ => none
  | n + 1, s =>
    match skipBlanks s with
    | '"' :: rest => (stringBody? rest).map fun r => (.string r.1, r.2)
    | '[' :: rest =>
      match skipBlanks rest with
      | ']' :: rest => some (.array [], rest)
      | rest => (items? n rest).map fun r => (.array r.1, r.2)
    | '\x7b' :: rest =>
      match skipBlanks rest with
      | '\x7d' :: rest => some (.object [], rest)
      | rest => (members? n rest).map fun r => (.object r.1, r.2)
    | rest => word? rest

/-- Reads the items of an array, of which there is one, up to its end. -/
def items? : Nat → List Char → Option (List Value × List Char)
  | 0, _ => none
  | n + 1, s => do
    let (item, rest) ← value? n s
    match skipBlanks rest with
    | ']' :: rest => return ([item], rest)
    | ',' :: rest =>
      let (items, rest) ← items? n rest
      return (item :: items, rest)
    | _ => none

/-- Reads the members of an object, of which there is one, up to its end. -/
def members? : Nat → List Char → Option (List (Option (List Char) × Value) × List Char)
  | 0, _ => none
  | n + 1, s => do
    match skipBlanks s with
    | '"' :: rest =>
      let (key, rest) ← stringBody? rest
      match skipBlanks rest with
      | ':' :: rest =>
        let (value, rest) ← value? n rest
        match skipBlanks rest with
        | '\x7d' :: rest => return ([(key, value)], rest)
        | ',' :: rest =>
          let (members, rest) ← members? n rest
          return ((key, value) :: members, rest)
        | _ => none
      | _ => none
    | _ => none

end

/-- Reads a text that holds one JSON value. -/
def parse? (s : List Char) : Option Value := do
  let (value, rest) ← value? (2 * s.length + 2) s
  if (skipBlanks rest).isEmpty then return value else none

end FileWatch.Json

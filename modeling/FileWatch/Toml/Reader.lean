import FileWatch.Toml.Lexeme
import FileWatch.Toml.Node

/-! # Reader — documents from text

A document is a sequence of lines, each blank, a header in brackets, or a key with a value. The
readers that call themselves are bounded by a number of calls that no document can exceed, since
each call takes a character.
-/

namespace FileWatch.Toml

mutual

/-- Reads a value. -/
def value? : Nat → List Char → Option (Node × List Char)
  | 0, _ => none
  | n + 1, s =>
    match s with
    | '[' :: rest =>
      match skipLines rest.length rest with
      | ']' :: rest => some (.array [], rest)
      | rest => (items? n rest).map fun r => (.array r.1, r.2)
    | '\x7b' :: rest =>
      match skipBlanks rest with
      | '\x7d' :: rest => some (.table .inline [], rest)
      | rest => (members? n rest []).map fun r => (.table .inline r.1, r.2)
    | 't' :: 'r' :: 'u' :: 'e' :: rest => some (.boolean true, rest)
    | 'f' :: 'a' :: 'l' :: 's' :: 'e' :: rest => some (.boolean false, rest)
    | '"' :: _ | '\'' :: _ => (string? s).map fun r => (.string r.1, r.2)
    | s => (integer? s).map fun r => (.integer r.1, r.2)

/-- Reads the items of an array, of which there is one, up to its end. -/
def items? : Nat → List Char → Option (List Node × List Char)
  | 0, _ => none
  | n + 1, s => do
    let (item, rest) ← value? n s
    match skipLines rest.length rest with
    | ']' :: rest => return ([item], rest)
    | ',' :: rest =>
      match skipLines rest.length rest with
      | ']' :: rest => return ([item], rest)
      | rest =>
        let (items, rest) ← items? n rest
        return (item :: items, rest)
    | _ => none

/-- Reads the members of a table in braces, of which there is one, up to its end, and adds them to
those read before. -/
def members? : Nat → List Char → List Member → Option (List Member × List Char)
  | 0, _, _ => none
  | n + 1, s, before => do
    let (path, rest) ← key? s.length s
    match rest with
    | '=' :: rest =>
      let (value, rest) ← value? n (skipBlanks rest)
      let members ← insertAt path value before
      match skipBlanks rest with
      | '\x7d' :: rest => return (members, rest)
      | ',' :: rest => members? n rest members
      | _ => none
    | _ => none

end

/-- A document so far: the path of the table that the next key belongs to, and the members. -/
structure Draft where
  path : List (List Char) := []
  members : List Member := []

/-- Reads a header after its opening bracket. -/
def header? (d : Draft) (s : List Char) : Option (Draft × List Char) := do
  let (path, rest) ← key? (s.length + 1) s
  match rest with
  | ']' :: rest =>
    let members ← openTable path d.members
    let rest ← lineEnd? rest
    return (⟨path, members⟩, rest)
  | _ => none

/-- Reads a key with its value. -/
def assignment? (d : Draft) (s : List Char) : Option (Draft × List Char) := do
  let (path, rest) ← key? (s.length + 1) s
  match rest with
  | '=' :: rest =>
    let (value, rest) ← value? (2 * rest.length + 2) (skipBlanks rest)
    let members ← changeAt (insertAt path value) d.path d.members
    let rest ← lineEnd? rest
    return ({ d with members }, rest)
  | _ => none

/-- Reads the lines of a document. -/
def lines? : Nat → Draft → List Char → Option (List Member)
  | 0, _, _ => none
  | n + 1, d, s =>
    match skipLines s.length s with
    | [] => some d.members
    | '[' :: rest => (header? d rest).bind fun r => lines? n r.1 r.2
    | rest => (assignment? d rest).bind fun r => lines? n r.1 r.2

/-- Drops the mark that may open a text. -/
def skipByteOrderMark : List Char → List Char
  | '\uFEFF' :: rest => rest
  | s => s

/-- Reads a document. -/
def parse? (s : List Char) : Option (List Member) :=
  lines? (s.length + 1) {} (skipByteOrderMark s)

end FileWatch.Toml

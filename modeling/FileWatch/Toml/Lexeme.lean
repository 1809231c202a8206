import FileWatch.Text.Hexadecimal

/-! # Lexeme — the smallest parts of a document

Readers of blanks, comments, keys, strings and whole numbers. Each takes the rest of the document
and returns what it read with the rest after it; `none` means that the document is not well formed
there.
-/

namespace FileWatch.Toml

/-- A space or a tab. -/
def isBlank (c : Char) : Bool := c == ' ' || c == '\t'

/-- Drops blanks within a line. -/
def skipBlanks (s : List Char) : List Char := s.dropWhile isBlank

/-- Whether a character may stand in a document at all, line ends apart. -/
def isShown (c : Char) : Bool := c == '\t' || (0x20 ≤ c.toNat && c.toNat != 0x7F)

/-- The rest after a line end, if one is here. -/
def newline? : List Char → Option (List Char)
  | '\n' :: rest => some rest
  | '\r' :: '\n' :: rest => some rest
  | _ => none

/-- Drops a comment, if one is here. -/
def skipComment : List Char → List Char
  | '#' :: rest => rest.dropWhile isShown
  | s => s

/-- Reads what may follow on a line: blanks, a comment, and the end of the line or document. -/
def lineEnd? (s : List Char) : Option (List Char) :=
  match skipComment (skipBlanks s) with
  | [] => some []
  | rest => newline? rest

/-- Drops blanks, comments and line ends. -/
def skipLines : Nat → List Char → List Char
  | 0, s => s
  | n + 1, s =>
    let rest := skipComment (skipBlanks s)
    match newline? rest with
    | some rest => skipLines n rest
    | none => rest

/-! ### Strings -/

/-- The character whose number the given hexadecimal digits are. -/
def numbered? (digits : List Char) : Option Char := do
  let n ← Text.hexNumber? digits
  if n.isValidChar then return Char.ofNat n else none

/-- The character of a one-letter escape. -/
def shortEscape? (c : Char) : Option Char :=
  match c with
  | 'b' => some '\x08'
  | 't' => some '\t'
  | 'n' => some '\n'
  | 'f' => some '\x0c'
  | 'r' => some '\r'
  | '"' => some '"'
  | '\\' => some '\\'
  | _ => none

/-- Reads an escape after its backslash. -/
def escape? (s : List Char) : Option (Char × List Char) :=
  match s with
  | 'u' :: rest =>
    if rest.length < 4 then none
    else (numbered? (rest.take 4)).map fun c => (c, rest.drop 4)
  | 'U' :: rest =>
    if rest.length < 8 then none
    else (numbered? (rest.take 8)).map fun c => (c, rest.drop 8)
  | c :: rest => (shortEscape? c).map fun c => (c, rest)
  | [] => none

theorem escape?_length {s rest : List Char} {c : Char} (h : escape? s = some (c, rest)) :
    rest.length < s.length := by
  unfold escape? at h
  split at h
  · split at h
    · contradiction
    · simp only [Option.map_eq_some_iff, Prod.mk.injEq] at h
      obtain ⟨_, _, _, rfl⟩ := h
      simp only [List.length_drop, List.length_cons]
      omega
  · split at h
    · contradiction
    · simp only [Option.map_eq_some_iff, Prod.mk.injEq] at h
      obtain ⟨_, _, _, rfl⟩ := h
      simp only [List.length_drop, List.length_cons]
      omega
  · simp only [Option.map_eq_some_iff, Prod.mk.injEq] at h
    obtain ⟨_, _, _, rfl⟩ := h
    simp
  · contradiction

/-- Reads a string with escapes after its opening quotation mark. -/
def basicString? (s : List Char) : Option (List Char × List Char) :=
  match s with
  | [] => none
  | '"' :: rest => some ([], rest)
  | '\\' :: rest =>
    match h : escape? rest with
    | none => none
    | some (c, after) =>
      have := escape?_length h
      (basicString? after).map fun r => (c :: r.1, r.2)
  | c :: rest =>
    if isShown c then (basicString? rest).map fun r => (c :: r.1, r.2) else none
termination_by s.length
decreasing_by all_goals simp only [List.length_cons]; omega

/-- Reads a string without escapes after its opening apostrophe. -/
def literalString? : List Char → Option (List Char × List Char)
  | [] => none
  | '\'' :: rest => some ([], rest)
  | c :: rest =>
    if isShown c then (literalString? rest).map fun r => (c :: r.1, r.2) else none

/-- The end of a string between triple marks: one or two marks before the last three belong to the
string. -/
def tripleEnd? (mark : Char) (s : List Char) : Option (List Char × List Char) :=
  let marks := (s.takeWhile (· == mark)).length
  if marks < 3 then none
  else
    let own := min (marks - 3) 2
    some (List.replicate own mark, s.drop (own + 3))

/-- Drops blanks and line ends. -/
def skipSpace : List Char → List Char
  | '\n' :: rest => skipSpace rest
  | '\r' :: '\n' :: rest => skipSpace rest
  | c :: rest => if isBlank c then skipSpace rest else c :: rest
  | [] => []

/-- The rest after a backslash at the end of a line: it takes all blanks and line ends that
follow. -/
def continuedLine? (s : List Char) : Option (List Char) := (newline? (skipBlanks s)).map skipSpace

/-- Reads a string between triple quotation marks, after the first three. A line end is one
character however it is written. -/
def longBasicString? : Nat → List Char → Option (List Char × List Char)
  | 0, _ => none
  | n + 1, s =>
    match tripleEnd? '"' s with
    | some r => some r
    | none =>
      match s with
      | [] => none
      | '\\' :: rest =>
        match continuedLine? rest with
        | some rest => longBasicString? n rest
        | none =>
          match escape? rest with
          | none => none
          | some (c, rest) => (longBasicString? n rest).map fun r => (c :: r.1, r.2)
      | c :: rest =>
        if isShown c then (longBasicString? n rest).map fun r => (c :: r.1, r.2)
        else match newline? s with
          | some rest => (longBasicString? n rest).map fun r => ('\n' :: r.1, r.2)
          | none => none

/-- Reads a string between triple apostrophes, after the first three. -/
def longLiteralString? : Nat → List Char → Option (List Char × List Char)
  | 0, _ => none
  | n + 1, s =>
    match tripleEnd? '\'' s with
    | some r => some r
    | none =>
      match s with
      | [] => none
      | c :: rest =>
        if isShown c then (longLiteralString? n rest).map fun r => (c :: r.1, r.2)
        else match newline? s with
          | some rest => (longLiteralString? n rest).map fun r => ('\n' :: r.1, r.2)
          | none => none

/-- The rest after a line end, or all of it if none is here. -/
def skipNewline (s : List Char) : List Char := (newline? s).getD s

/-- Reads a string in any of its four forms. -/
def string? (s : List Char) : Option (List Char × List Char) :=
  match s with
  | '"' :: '"' :: '"' :: rest => longBasicString? (rest.length + 1) (skipNewline rest)
  | '\'' :: '\'' :: '\'' :: rest => longLiteralString? (rest.length + 1) (skipNewline rest)
  | '"' :: rest => basicString? rest
  | '\'' :: rest => literalString? rest
  | _ => none

/-! ### Keys -/

/-- The characters of a key without quotation marks. -/
def isBare (c : Char) : Bool := c.isAlphanum || c == '-' || c == '_'

/-- Reads one part of a key. -/
def simpleKey? (s : List Char) : Option (List Char × List Char) :=
  match s with
  | '"' :: rest => basicString? rest
  | '\'' :: rest => literalString? rest
  | s =>
    let key := s.takeWhile isBare
    if key.isEmpty then none else some (key, s.dropWhile isBare)

/-- Reads a key: its parts, with dots between them and blanks around each. -/
def key? : Nat → List Char → Option (List (List Char) × List Char)
  | 0, _ => none
  | n + 1, s => do
    let (part, rest) ← simpleKey? (skipBlanks s)
    match skipBlanks rest with
    | '.' :: rest =>
      let (parts, rest) ← key? n rest
      return (part :: parts, rest)
    | rest => return ([part], rest)

/-! ### Whole numbers -/

/-- The value of a digit below the radix. -/
def digit? (radix : Nat) (c : Char) : Option Nat := (Text.hexValue? c).filter (· < radix)

/-- Whether a character is a digit below the radix. -/
def isDigit (radix : Nat) (c : Char) : Bool := (digit? radix c).isSome

/-- Reads the digits of a number after those that make `n`. Two digits may have `_` between
them. -/
def digitsAfter? (radix n : Nat) : List Char → Option (Nat × List Char)
  | [] => some (n, [])
  | c :: rest =>
    match digit? radix c with
    | some d => digitsAfter? radix (n * radix + d) rest
    | none =>
      if c == '_' then
        match rest with
        | c :: rest =>
          match digit? radix c with
          | some d => digitsAfter? radix (n * radix + d) rest
          | none => none
        | [] => none
      else some (n, c :: rest)

/-- Reads the digits of a number, of which there must be one. -/
def digits? (radix : Nat) (s : List Char) : Option (Nat × List Char) :=
  match s with
  | c :: rest => (digit? radix c).bind fun d => digitsAfter? radix d rest
  | [] => none

/-- Reads decimal digits. A zero stands alone. -/
def decimal? (s : List Char) : Option (Nat × List Char) :=
  match s with
  | '0' :: rest => some (0, rest)
  | s => digits? 10 s

/-- The largest whole number of a document. -/
def largest : Nat := 0x7FFFFFFFFFFFFFFF

/-- Reads a whole number: decimal with an optional sign, or hexadecimal, octal or binary. -/
def integer? (s : List Char) : Option (Int × List Char) := do
  let (n, rest) ← match s with
    | '0' :: 'x' :: rest => (digits? 16 rest).map fun r => (Int.ofNat r.1, r.2)
    | '0' :: 'o' :: rest => (digits? 8 rest).map fun r => (Int.ofNat r.1, r.2)
    | '0' :: 'b' :: rest => (digits? 2 rest).map fun r => (Int.ofNat r.1, r.2)
    | '-' :: rest => (decimal? rest).map fun r => (-Int.ofNat r.1, r.2)
    | '+' :: rest => (decimal? rest).map fun r => (Int.ofNat r.1, r.2)
    | s => (decimal? s).map fun r => (Int.ofNat r.1, r.2)
  if -Int.ofNat largest - 1 ≤ n ∧ n ≤ Int.ofNat largest then return (n, rest) else none

end FileWatch.Toml

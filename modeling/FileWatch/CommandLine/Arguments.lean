import FileWatch.Path

/-! # Arguments — reading a command line

A command line is read against a `Grammar`: the options of a level, the operands it takes, and the
commands below it. Reading ends with an `Outcome`: the settings that were given, a request for help
or for the version, or a command line that is not well formed. Every setting is checked when the
next one starts, so a request for help counts only if all before it is well formed.
-/

namespace FileWatch.CommandLine

/-- An argument as the system passes it. -/
abbrev Argument := List UInt8

/-- What the value of an option or an operand must be. -/
inductive ValueKind where
  /-- Any bytes, but some. -/
  | path
  /-- Text. -/
  | text
  /-- A whole number of 64 bits. -/
  | number
  deriving DecidableEq, Repr

/-- What an option does. -/
inductive OptionKind where
  /-- It is given or not. -/
  | flag
  /-- It may be given several times. -/
  | counter
  | value (kind : ValueKind)
  | help
  | version
  deriving DecidableEq, Repr

/-- An option: its long name, its letter if it has one, what it does, and what is said of it. -/
structure OptionSpec where
  long : String
  short : Option Char := none
  kind : OptionKind
  about : String
  deriving DecidableEq, Repr

/-- The operands of a level: what they are called, how many there are, and what is said of them. -/
structure OperandSpec where
  name : String
  isRequired : Bool := true
  isRepeated : Bool := false
  about : String
  deriving DecidableEq, Repr

/-- A level of the command line: the words that lead to it, what is said of it, the commands below
it with what is said of them, its operands, and its options. -/
structure Grammar where
  name : String
  about : String
  commands : List (String × String) := []
  operands : Option OperandSpec := none
  options : List OptionSpec := []
  deriving DecidableEq, Repr

/-- A value that was given. -/
inductive Value where
  | path (p : Path)
  | text (s : List Char)
  | number (n : UInt64)
  deriving DecidableEq, Repr

/-- A setting that was given: an option, with its value if it has one, or an operand. -/
inductive Setting where
  | flag (long : String)
  | value (long : String) (v : Value)
  | operand (p : Path)
  deriving DecidableEq, Repr

/-- How reading ends. -/
inductive Outcome (α : Type) where
  | done (a : α)
  /-- Help is asked for on a level. -/
  | help (g : Grammar)
  | version
  | malformed
  deriving Repr

namespace Outcome

/-- Goes on with what was read. -/
def bind {α β : Type} (o : Outcome α) (f : α → Outcome β) : Outcome β :=
  match o with
  | done a => f a
  | help g => help g
  | version => version
  | malformed => malformed

instance : Monad Outcome where
  pure := done
  bind := bind

/-- Goes on with what is there, or else the command line is not well formed. -/
def ofOption {α : Type} : Option α → Outcome α
  | some a => done a
  | none => malformed

end Outcome

/-- The number that decimal digits spell, after an optional `+`, if it has 64 bits. -/
def number? (s : List Char) : Option UInt64 :=
  let digits := match s with
    | '+' :: digits => digits
    | digits => digits
  if digits.isEmpty || !digits.all Char.isDigit then none
  else
    let n := Nat.ofDigitChars 10 digits 0
    if n < UInt64.size then some (UInt64.ofNat n) else none

/-- Reads a value. -/
def ValueKind.read? (k : ValueKind) (a : Argument) : Option Value :=
  match k with
  | .path => if a.isEmpty then none else some (.path ⟨a⟩)
  | .text => (Text.decode? a).map .text
  | .number => ((Text.decode? a).bind number?).map .number

/-- A setting that is complete but not yet checked, or that still lacks its value. -/
inductive Pending where
  | option (long : String) (kind : ValueKind) (value : Option Argument)
  | operand (a : Argument)
  deriving DecidableEq, Repr

/-- How far a level has been read. -/
structure Progress where
  /-- The settings so far, oldest first. -/
  settings : List Setting := []
  pending : Option Pending := none
  /-- How many operands were given. -/
  operands : Nat := 0
  deriving DecidableEq, Repr

namespace Progress

/-- Whether an option was given. -/
def has (p : Progress) (long : String) : Bool :=
  p.settings.any fun s =>
    match s with
    | .flag l => l == long
    | .value l _ => l == long
    | .operand _ => false

/-- Adds a setting. -/
def add (p : Progress) (s : Setting) : Progress := { p with settings := p.settings ++ [s] }

/-- Checks the pending setting. An option has its value, and is given once. -/
def settle (p : Progress) : Outcome Progress :=
  let rest := { p with pending := none }
  match p.pending with
  | none => .done rest
  | some (.operand a) =>
    (Outcome.ofOption (ValueKind.path.read? a)).bind fun v =>
      match v with
      | .path q => .done (rest.add (.operand q))
      | _ => .malformed
  | some (.option long kind value) =>
    (Outcome.ofOption (value.bind kind.read?)).bind fun v =>
      if p.has long then .malformed else .done (rest.add (.value long v))

/-- An option without a value. -/
def plain (g : Grammar) (p : Progress) (o : OptionSpec) : Outcome Progress :=
  p.settle.bind fun p =>
    match o.kind with
    | .help => .help g
    | .version => .version
    | .flag => if p.has o.long then .malformed else .done (p.add (.flag o.long))
    | .counter => .done (p.add (.flag o.long))
    | .value _ => .malformed

/-- An option with a value in the same argument. -/
def attached (p : Progress) (o : OptionSpec) (value : Argument) : Outcome Progress :=
  match o.kind with
  | .value kind =>
    p.settle.bind fun p => { p with pending := some (.option o.long kind (some value)) }.settle
  | _ => .malformed

/-- An option that takes a value from the next argument, or an option without a value. -/
def start (g : Grammar) (p : Progress) (o : OptionSpec) : Outcome Progress :=
  match o.kind with
  | .value kind =>
    p.settle.bind fun p => .done { p with pending := some (.option o.long kind none) }
  | _ => p.plain g o

/-- An operand. -/
def operand (g : Grammar) (p : Progress) (a : Argument) : Outcome Progress :=
  let isWelcome := match g.operands with
    | none => false
    | some spec => spec.isRepeated || p.operands == 0
  if !isWelcome then .malformed
  else p.settle.bind fun p =>
    .done { p with pending := some (.operand a), operands := p.operands + 1 }

end Progress

/-- The byte `-`. -/
def dash : UInt8 := 0x2D

/-- The byte `=`. -/
def equals : UInt8 := 0x3D

/-- Reads an argument that starts with two dashes, after them. -/
def longArgument (g : Grammar) (p : Progress) (a : Argument) : Outcome Progress :=
  let name := a.takeWhile (· != equals)
  match g.options.find? fun o => Text.encode o.long.toList == name with
  | none => .malformed
  | some o =>
    match a.drop name.length with
    | [] => p.start g o
    | _ :: value => p.attached o value

/-- Reads letters of an argument that starts with one dash. -/
def letters (g : Grammar) : List UInt8 → Progress → Outcome Progress
  | [], p => .done p
  | b :: rest, p =>
    match g.options.find? fun o => o.short.map Char.toNat == some b.toNat with
    | none => .malformed
    | some o => (p.plain g o).bind (letters g rest)

/-- Reads arguments that are operands however they look. -/
def operandsOnly (g : Grammar) : List Argument → Progress → Outcome Progress
  | [], p => .done p
  | a :: rest, p => (p.operand g a).bind (operandsOnly g rest)

/-- The pending option still lacks its value. -/
def Progress.lacksValue (p : Progress) : Option (String × ValueKind) :=
  match p.pending with
  | some (.option long kind none) => some (long, kind)
  | _ => none

/-- Reads the arguments of a level up to the first that names a command and is no value, and returns
the arguments from there on. -/
def readLevel (g : Grammar) : List Argument → Progress → Outcome (Progress × List Argument)
  | [], p => .done (p, [])
  | a :: rest, p =>
    match p.lacksValue, a with
    | lacking, 0x2D :: 0x2D :: name =>
      if name.isEmpty then
        if lacking.isSome then .malformed
        else (operandsOnly g rest p).bind fun p => .done (p, [])
      else (longArgument g p name).bind (readLevel g rest)
    | lacking, a =>
      if lacking.isNone && g.commands.any (fun c => Text.encode c.1.toList == a) then
        .done (p, a :: rest)
      else match lacking, a with
        | _, 0x2D :: b :: name => (letters g (b :: name) p).bind (readLevel g rest)
        | some (long, kind), a =>
          readLevel g rest { p with pending := some (.option long kind (some a)) }
        | none, a => (p.operand g a).bind (readLevel g rest)

end FileWatch.CommandLine

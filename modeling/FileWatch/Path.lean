import FileWatch.Text.Utf8

/-! # Path — file names as byte strings

A path is the byte string that was given and is kept as given. Two paths name the same place when
their `components` agree: separators are neither counted nor doubled, `.` counts only at the very
start of a relative path, and `..` is a name like any other.
-/

namespace FileWatch

/-- One name in a directory. -/
abbrev Name := List UInt8

/-- A path, byte for byte. -/
structure Path where
  bytes : List UInt8
  deriving DecidableEq, Repr, Inhabited

/-- What a path is made of. -/
inductive Component where
  /-- The separator that an absolute path starts with. -/
  | root
  /-- The `.` that a relative path starts with. -/
  | here
  | name (n : Name)
  deriving DecidableEq, Repr

namespace Path

/-- The separator `/`. -/
def slash : UInt8 := 0x2F

/-- The name `.`. -/
def dot : Name := [0x2E]

/-- The name `..`. -/
def dotDot : Name := [0x2E, 0x2E]

/-- The path spelled by a text. -/
def ofText (s : List Char) : Path := ⟨Text.encode s⟩

/-- The path spelled by a string. -/
def ofString (s : String) : Path := ofText s.toList

/-- What stands between separators for a component. -/
def spelling : Component → Name
  | .root => []
  | .here => dot
  | .name n => n

/-- The empty path names nothing. -/
def isEmpty (p : Path) : Bool := p.bytes.isEmpty

/-- Whether the path starts at the root. -/
def isAbsolute (p : Path) : Bool := p.bytes.head? == some slash

/-- The stretches between separators, empty ones included. -/
def pieces (p : Path) : List Name := p.bytes.splitOn slash

/-- Whether a stretch between separators names an entry. -/
def isName (n : Name) : Bool := !n.isEmpty && n != dot

/-- The last stretch that is not empty. -/
def lastPiece? (p : Path) : Option Name := (p.pieces.filter fun n => !n.isEmpty).getLast?

/-- Whether the last stretch names an entry of the directory that the path leads to before it. -/
def endsInName (p : Path) : Bool :=
  (p.lastPiece?.map fun n => n != dot && n != dotDot).getD false

/-- Whether the path ends in a separator. -/
def endsInSlash (p : Path) : Bool := p.bytes.getLast? == some slash

/-- The path without the separators at its end. -/
def withoutSlashes (p : Path) : Path := ⟨(p.bytes.reverse.dropWhile (· == slash)).reverse⟩

/-- The parts of the path that count. -/
def components (p : Path) : List Component :=
  let names := (p.pieces.filter isName).map Component.name
  if p.isAbsolute then .root :: names
  else if p.pieces.head? == some dot then .here :: names
  else names

/-- Two paths are the same place by name when their components agree. -/
def same (p q : Path) : Bool := p.components == q.components

/-- The path that spells some components. -/
def ofComponents (cs : List Component) : Path :=
  if cs == [.root] then ⟨[slash]⟩ else ⟨[slash].intercalate (cs.map spelling)⟩

/-- The path that leads from `base` to `p`, if `p` starts with the components of `base`. -/
def below? (base p : Path) : Option Path :=
  if base.components.isPrefixOf p.components then
    some (ofComponents (p.components.drop base.components.length))
  else none

/-- The path `p` as seen from `base`: an absolute path stays, any other is put after `base`. -/
def join (base p : Path) : Path :=
  if p.isAbsolute then p
  else if base.isEmpty || base.endsInSlash then ⟨base.bytes ++ p.bytes⟩
  else ⟨base.bytes ++ slash :: p.bytes⟩

/-- The absolute path of a list of names. -/
def ofNames (names : List Name) : Path :=
  if names.isEmpty then ⟨[slash]⟩ else ⟨names.flatMap (slash :: ·)⟩

/-- The text of a path that is text throughout. -/
def text? (p : Path) : Option (List Char) := Text.decode? p.bytes

/-- The path as shown to a reader, with U+FFFD where its bytes are no text. -/
def display (p : Path) : String := String.ofList (Text.decodeLossy p.bytes)

end Path

end FileWatch

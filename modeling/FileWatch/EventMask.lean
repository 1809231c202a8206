/-! # EventMask — sets of change classes

An `EventMask` says which classes of change a watch asks for. It is a word of 32 bits: eight of
them stand for the `EventClass`es, the others mean nothing and are carried along.
-/

namespace FileWatch

/-- A class of change that a watch can ask for. -/
inductive EventClass where
  /-- Files added, removed or renamed. -/
  | fileName
  /-- Directories added, removed or renamed. -/
  | dirName
  | attributes
  | size
  | lastWrite
  | lastAccess
  | creation
  | security
  deriving DecidableEq, Repr

namespace EventClass

/-- The classes, lowest bit first. -/
def all : List EventClass :=
  [fileName, dirName, attributes, size, lastWrite, lastAccess, creation, security]

/-- The position of the bit that stands for the class. -/
def position : EventClass → Nat
  | fileName => 0
  | dirName => 1
  | attributes => 2
  | size => 3
  | lastWrite => 4
  | lastAccess => 5
  | creation => 6
  | security => 7

/-- The name of the class. -/
def name : EventClass → String
  | fileName => "FILE_NAME"
  | dirName => "DIR_NAME"
  | attributes => "ATTRIBUTES"
  | size => "SIZE"
  | lastWrite => "LAST_WRITE"
  | lastAccess => "LAST_ACCESS"
  | creation => "CREATION"
  | security => "SECURITY"

/-- The class of a name. -/
def ofName? (s : List Char) : Option EventClass := all.find? fun c => c.name.toList == s

end EventClass

/-- A set of change classes, as a word. -/
structure EventMask where
  bits : BitVec 32
  deriving DecidableEq, Repr

namespace EventMask

/-- The mask that asks for nothing. -/
def empty : EventMask := ⟨0⟩

/-- The mask of one class. -/
def single (c : EventClass) : EventMask := ⟨BitVec.twoPow 32 c.position⟩

instance : Inhabited EventMask := ⟨empty⟩
instance : OrOp EventMask := ⟨fun a b => ⟨a.bits ||| b.bits⟩⟩
instance : AndOp EventMask := ⟨fun a b => ⟨a.bits &&& b.bits⟩⟩
instance : XorOp EventMask := ⟨fun a b => ⟨a.bits ^^^ b.bits⟩⟩
instance : SDiff EventMask := ⟨fun a b => ⟨a.bits &&& ~~~b.bits⟩⟩
instance : Coe EventClass EventMask := ⟨single⟩

/-- The mask of some classes. -/
def ofClasses (cs : List EventClass) : EventMask := cs.foldr (fun c m => single c ||| m) empty

/-- Every class. -/
def all : EventMask := ofClasses EventClass.all

/-- Entries appearing, disappearing or being renamed. -/
def nameChanges : EventMask := ofClasses [.fileName, .dirName]

/-- Changes to an entry that is there. -/
def contentChanges : EventMask :=
  ofClasses [.attributes, .size, .lastWrite, .lastAccess, .creation, .security]

/-- What a watch asks for unless told otherwise. -/
def standard : EventMask := ofClasses [.fileName, .dirName, .size, .lastWrite]

/-- Whether every bit of `b` is in `a`. -/
def contains (a b : EventMask) : Bool := a &&& b == b

/-- Whether `a` and `b` share a bit. -/
def intersects (a b : EventMask) : Bool := (a &&& b).bits != 0

/-- Whether no bit is set. -/
def isEmpty (a : EventMask) : Bool := a.bits == 0

/-- The bits of `a` that stand for a class. -/
def known (a : EventMask) : EventMask := a &&& all

/-- The classes that `a` does not ask for. -/
def complement (a : EventMask) : EventMask := all \ a

/-- Whether every class is asked for. -/
def isAll (a : EventMask) : Bool := a.contains all

/-- The classes asked for, lowest bit first. -/
def classes (a : EventMask) : List EventClass := EventClass.all.filter fun c => a.contains c

theorem ext {a b : EventMask} (h : a.bits = b.bits) : a = b := by
  cases a; cases b; simp_all

@[simp] theorem bits_or (a b : EventMask) : (a ||| b).bits = a.bits ||| b.bits := rfl

@[simp] theorem bits_and (a b : EventMask) : (a &&& b).bits = a.bits &&& b.bits := rfl

@[simp] theorem bits_xor (a b : EventMask) : (a ^^^ b).bits = a.bits ^^^ b.bits := rfl

@[simp] theorem bits_sdiff (a b : EventMask) : (a \ b).bits = a.bits &&& ~~~b.bits := rfl

end EventMask

end FileWatch

import FileWatch.Clock

/-! # Signature — the remembered state of one file

A `Signature` keeps what is known of one file: whether it exists, and the latest size and time of
modification that were supplied. `record` folds one `Observation` into it and says whether the
file changed. The first observation that tells anything only sets the baseline.
-/

namespace FileWatch

/-- What one look at a path can tell. -/
inductive Observation where
  /-- There is nothing at the path. -/
  | missing
  /-- Something is there, with the attributes that were asked for and could be read. -/
  | present (size : Option Nat) (modified : Option Moment)
  /-- It cannot be told whether anything is there. -/
  | unknown
  deriving DecidableEq, Repr

/-- The remembered state of one file. -/
structure Signature where
  exists? : Bool := false
  size : Option Nat := none
  modified : Option Moment := none
  /-- Whether any observation has told anything yet. -/
  sampled : Bool := false
  deriving DecidableEq, Repr

namespace Signature

/-- The signature of a file that was never looked at. -/
def fresh : Signature := {}

/-- Whether an attribute that is supplied now differs from the one supplied before. -/
def differs {α : Type} [DecidableEq α] (before now : Option α) : Bool :=
  match before, now with
  | some a, some b => a != b
  | _, _ => false

/-- Folds an observation into a signature. The first component says whether the file changed
since the observation before it. -/
def record (s : Signature) : Observation → Bool × Signature
  | .unknown => (false, s)
  | .missing =>
    (s.sampled && s.exists?, { exists? := false, size := none, modified := none, sampled := true })
  | .present size modified =>
    (s.sampled && (!s.exists? || differs s.size size || differs s.modified modified),
      { exists? := true, size := size.or s.size, modified := modified.or s.modified,
        sampled := true })

/-- Folds observations into a signature, first to last, with the answer and the signature after
each. -/
def recordAll (s : Signature) : List Observation → List (Bool × Signature)
  | [] => []
  | o :: os => s.record o :: recordAll (s.record o).2 os

end Signature

end FileWatch

import FileWatch.Disk
import FileWatch.EventMask
import FileWatch.Signature

/-! # Detector — whether one file changed since the last look

A detector looks at one path on demand and compares with the look before. Existence always
counts; size and time of modification count when the mask asks for them.
-/

namespace FileWatch

/-- A path to look at, what counts as a change, and what the last look showed. -/
structure Detector where
  path : Path
  tracksSize : Bool
  tracksModified : Bool
  signature : Signature := Signature.fresh
  deriving DecidableEq, Repr

namespace Detector

/-- The size that is seen of a directory. It stands for whatever a file system reports: a change of
it is not modelled. -/
def directorySize : Nat := 4096

/-- The time of modification that is seen of a directory. As with its size, a change of it is not
modelled. -/
def directoryTime : Moment := ⟨0, 0⟩

/-- A detector that has not looked yet. -/
def ofMask (path : Path) (events : EventMask) : Detector :=
  { path, tracksSize := events.contains (.single .size)
    tracksModified := events.contains (.single .lastWrite) }

/-- What is seen at the path. A file shows its size and its time of modification. The attributes of
directories are not modelled, so a directory shows the same at every look. -/
def observe (t : Detector) (d : Disk) : Observation :=
  match d.status t.path with
  | .error .notFound => .missing
  | .error _ => .unknown
  | .ok e =>
    let (size, modified) := match e with
      | .file content modified => (content.length, modified)
      | _ => (directorySize, directoryTime)
    .present (if t.tracksSize then some size else none)
      (if t.tracksModified then some modified else none)

/-- Looks once. The first component says whether the file changed. -/
def check (t : Detector) (d : Disk) : Bool × Detector :=
  let (changed, signature) := t.signature.record (t.observe d)
  (changed, { t with signature })

end Detector

end FileWatch

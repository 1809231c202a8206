import FileWatch.Detector

/-! # Poller — detectors for several paths

A poller keeps a detector for each tracked path and looks at all of them in one scan.
-/

namespace FileWatch

/-- The detectors, in the order of tracking. -/
structure Poller where
  detectors : List Detector := []
  deriving DecidableEq, Repr

namespace Poller

/-- The poller that tracks nothing. -/
def empty : Poller := {}

/-- Tracks a path from now on: its detector looks at once, to know what later looks are compared
with. -/
def track (p : Poller) (d : Disk) (path : Path) (events : EventMask) : Poller :=
  ⟨p.detectors ++ [((Detector.ofMask path events).check d).2]⟩

/-- How many paths are tracked. -/
def tracked (p : Poller) : Nat := p.detectors.length

/-- Looks at every tracked path. The first component has those that changed, in the order of
tracking. -/
def scan (p : Poller) (d : Disk) : List Path × Poller :=
  let looks := p.detectors.map fun t => (t.path, t.check d)
  ((looks.filter fun l => l.2.1).map Prod.fst, ⟨looks.map fun l => l.2.2⟩)

end Poller

end FileWatch

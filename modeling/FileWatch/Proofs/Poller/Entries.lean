import FileWatch.Poller
import FileWatch.Proofs.Detector.Looks
import Mathlib.Data.List.Induction

/-! # Entries — each tracked path on its own

The `entries` of a history of a poller are its calls of `track`, each with the disks that were
looked at since: the one at the call, and that of each scan after it. The poller keeps for each
entry the detector that has looked at just these disks (`detectors_after`), so a scan finds changed
what detectors of their own would find changed (`scan_after`), in the order of tracking.
-/

namespace FileWatch

namespace Poller

/-- A use of a poller. -/
inductive Use where
  | track (path : Path) (events : EventMask)
  | scan
  deriving DecidableEq, Repr

/-- The poller after uses of it, each with the disk that it meets. -/
def after (p : Poller) (uses : List (Disk × Use)) : Poller :=
  uses.foldl (fun p u =>
    match u.2 with
    | .track path events => p.track u.1 path events
    | .scan => (p.scan u.1).2) p

/-- What each scan among the uses finds changed. -/
def found (p : Poller) : List (Disk × Use) → List (List Path)
  | [] => []
  | (d, .track path events) :: uses => (p.track d path events).found uses
  | (d, .scan) :: uses => (p.scan d).1 :: (p.scan d).2.found uses

/-- A tracked path, with the disks that were looked at since, first the one at the call. -/
structure Entry where
  path : Path
  events : EventMask
  looks : List Disk

namespace Entry

/-- The detector of the entry, which has not looked yet. -/
def fresh (e : Entry) : Detector := Detector.ofMask e.path e.events

/-- Whether a detector of its own reports a change at the latest look. -/
def isChanged (e : Entry) : Bool := (e.fresh.answers e.looks).getLast?.getD false

end Entry

/-- The disks of the scans. -/
def scanned (uses : List (Disk × Use)) : List Disk :=
  (uses.filter fun u => u.2 = .scan).map Prod.fst

/-- The tracked paths, in the order of tracking. -/
def entries : List (Disk × Use) → List Entry
  | [] => []
  | (d, .track path events) :: uses => ⟨path, events, d :: scanned uses⟩ :: entries uses
  | (_, .scan) :: uses => entries uses

/-- The paths of the entries that changed, in the order of tracking. -/
def changed (es : List Entry) : List Path := (es.filter Entry.isChanged).map Entry.path

@[simp] theorem after_concat (p : Poller) (uses : List (Disk × Use)) (u : Disk × Use) :
    p.after (uses ++ [u]) = (p.after uses).after [u] := by
  simp [after]

end Poller

end FileWatch

import FileWatch.Native.Event

/-! # RenameHistory — renames that were reported in halves

Some handles report a rename as one event for the old name, one for the new name and then one for
both, all with the same tracker. The history remembers the trackers of halves, so that the
combined event after them is known to repeat what was said.
-/

namespace FileWatch

/-- The trackers of the latest halves, oldest first. -/
structure RenameHistory where
  seen : List Nat := []
  deriving DecidableEq, Repr

namespace RenameHistory

/-- How many trackers are remembered. -/
def limit : Nat := 64

/-- The history that remembers nothing. -/
def empty : RenameHistory := {}

/-- Remembers a half, in place of the oldest one when there is no room. -/
def remember (h : RenameHistory) (tracker : Nat) : RenameHistory :=
  if h.seen.contains tracker then h
  else if h.seen.length ≥ limit then ⟨h.seen.tail ++ [tracker]⟩
  else ⟨h.seen ++ [tracker]⟩

/-- Records an event. The first component says whether it repeats a rename that was reported in
halves. -/
def record (h : RenameHistory) (e : NativeEvent) : Bool × RenameHistory :=
  match e.kind, e.tracker with
  | .modify (.name .both), some t => (h.seen.contains t, ⟨h.seen.filter (· != t)⟩)
  | .modify (.name _), some t => (false, h.remember t)
  | _, _ => (false, h)

end RenameHistory

end FileWatch

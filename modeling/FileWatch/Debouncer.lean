import FileWatch.Notification

/-! # Debouncer — holding back repeated modifications

A debouncer admits the first modification of a path and holds back the further ones within the
window. A change of names is always admitted and opens the path's window again. Times are
nanoseconds of one clock; a time before an earlier one counts as no time passed.
-/

namespace FileWatch

/-- The latest admitted modification of each path, and the window that follows each. -/
structure Debouncer where
  window : Duration
  latest : List (List Component × Nat) := []
  deriving Repr

namespace Debouncer

/-- From how many remembered paths on an admission first forgets the expired ones. -/
def pruneThreshold : Nat := 1024

/-- A debouncer that remembers nothing. -/
def ofWindow (window : Duration) : Debouncer := { window }

/-- A debouncer without a window admits everything. -/
def isEnabled (d : Debouncer) : Bool := d.window != Duration.zero

/-- When the latest modification of the path was admitted. -/
def latestOf? (d : Debouncer) (key : List Component) : Option Nat := d.latest.lookup key

/-- Whether at the time `now` a modification admitted at `time` still holds others back. -/
def isOpen (d : Debouncer) (now time : Nat) : Bool := now - time < d.window.nanoseconds

/-- Forgets one path. -/
def forget (d : Debouncer) (key : List Component) : Debouncer :=
  { d with latest := d.latest.filter fun e => e.1 != key }

/-- Forgets the paths whose window has passed. -/
def prune (d : Debouncer) (now : Nat) : Debouncer :=
  { d with latest := d.latest.filter fun e => d.isOpen now e.2 }

/-- Remembers a modification of the path, in place of an earlier one. -/
def remember (d : Debouncer) (key : List Component) (now : Nat) : Debouncer :=
  { d with latest := (key, now) :: (d.forget key).latest }

/-- Decides on a notification at the time `now`. -/
def offer (d : Debouncer) (n : Notification) (now : Nat) : Bool × Debouncer :=
  let key := n.path.components
  if !d.isEnabled then (true, d)
  else if n.kind.isNameChange then (true, d.forget key)
  else if ((d.latestOf? key).map (d.isOpen now)).getD false then (false, d)
  else
    let d := if d.latest.length ≥ pruneThreshold then d.prune now else d
    (true, d.remember key now)

/-- The notifications among `ns` that are admitted at the time `now`, in order. -/
def offerAll (d : Debouncer) (now : Nat) : List Notification → List Notification × Debouncer
  | [] => ([], d)
  | n :: ns =>
    let (admitted, d) := d.offer n now
    let (rest, d) := d.offerAll now ns
    (if admitted then n :: rest else rest, d)

end Debouncer

end FileWatch

import FileWatch.Path

/-! # Scope — the paths that a watch reports on

A scope is a root and whether it is recursive. It holds the root itself, the entries of the root,
and, when recursive, everything below.
-/

namespace FileWatch

/-- The paths that a watch reports on. -/
structure Scope where
  root : Path
  recursive : Bool
  deriving DecidableEq, Repr

namespace Scope

/-- Whether a path is in the scope. -/
def contains (s : Scope) (p : Path) : Bool :=
  if p.same s.root then true
  else match s.root.below? p with
    | some rest => s.recursive || rest.components.length == 1
    | none => false

end Scope

end FileWatch

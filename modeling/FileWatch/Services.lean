import FileWatch.Watcher

/-! # Services — where watchers come from

Callers ask the services for a watcher. For a scope the services can be overridden; overrides nest
and may end in any order. Each keeps the services it was installed with, and the same services may
be installed by several.
-/

namespace FileWatch

/-- A source of watchers: a name, and the kind of backend of its watchers. -/
structure Services where
  name : String
  backend : BackendKind
  deriving DecidableEq, Repr

/-- The services of this system. -/
def Services.native : Services := ⟨"native", .unix⟩

/-- Makes a watcher. -/
def Services.watcher (s : Services) : Watcher := Watcher.ofBackend (Backend.ofKind s.backend)

/-- The overrides in force. Services are known by number: two with equal properties are not the
same. -/
structure Overrides where
  /-- The numbers of the installed services, innermost last. -/
  active : List Nat := []
  /-- What each override installed, in the order of installation; `none` once it has ended. -/
  installed : List (Option Nat) := []
  deriving DecidableEq, Repr

namespace Overrides

/-- No override is in force. -/
def none : Overrides := {}

/-- Removes the last occurrence of a number. -/
def removeLast (k : Nat) (l : List Nat) : List Nat := (l.reverse.erase k).reverse

/-- Installs an override. -/
def install (o : Overrides) (services : Nat) : Overrides :=
  ⟨o.active ++ [services], o.installed ++ [some services]⟩

/-- Ends the override with the given number. Nothing happens if it has ended before. -/
def finish (o : Overrides) (n : Nat) : Overrides :=
  match o.installed[n]?.join with
  | some services => ⟨removeLast services o.active, o.installed.set n Option.none⟩
  | Option.none => o

/-- The number of the services in force, if an override is. -/
def innermost? (o : Overrides) : Option Nat := o.active.getLast?

/-- The services in force, out of those that the numbers stand for. -/
def services (o : Overrides) (all : List Services) : Services :=
  (o.innermost?.bind fun k => all[k]?).getD Services.native

end Overrides

end FileWatch

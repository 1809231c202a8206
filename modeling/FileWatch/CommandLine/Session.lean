import FileWatch.CommandLine.Display
import FileWatch.Poller
import FileWatch.Watcher.Happening

/-! # Session — a command that goes on

`watch` and `poll` act at every tick of a timer until they are interrupted. A session is such a
command between two ticks: a watcher, a detector for a file that cannot be watched, or a poller.
-/

namespace FileWatch.CommandLine

/-- A command between two ticks. -/
inductive Session where
  /-- A watcher that is drained at every tick. -/
  | watching (watcher : Watcher) (json : Bool)
  /-- A file that is looked at on every tick, and whether it existed when last reported. -/
  | looking (detector : Detector) (existed json : Bool)
  /-- A poller that scans at every tick. -/
  | polling (poller : Poller)
  deriving Repr

/-- The lines that a tick prints, and why the command ends there if it does. -/
structure Printed where
  lines : List String
  failure : Option Failure := none
  deriving DecidableEq, Repr

/-- How a session went: the lines of each tick, why it failed if it did, and what it left behind. -/
structure Course where
  ticks : List (List String)
  failure : Option Failure
  session : Session
  world : World
  deriving Repr

/-- The kind of a change of a file that existed or not, before and now. -/
def kindOfChange (existed exists? : Bool) : ChangeKind :=
  match existed, exists? with
  | false, true => .added
  | true, false => .removed
  | _, _ => .modified

namespace Session

/-- Acts at a tick. -/
def tick (world : World) : Session → Printed × Session × World
  | watching f json =>
    let (ns, f, world) := f.drain world
    let (lines, failure) := linesOf json ns
    (⟨lines, failure⟩, watching f json, world)
  | looking t existed json =>
    let (changed, t) := t.check world.disk
    if !changed then (⟨[], none⟩, looking t existed json, world)
    else
      let kind := kindOfChange existed t.signature.exists?
      let (lines, failure) := linesOf json [⟨kind, t.path⟩]
      (⟨lines, failure⟩, looking t t.signature.exists? json, world)
  | polling p =>
    let (changed, p) := p.scan world.disk
    (⟨changed.map fun q => "changed " ++ q.display, none⟩, polling p, world)

/-- Something goes on around the session. -/
def meet (world : World) (h : Happening) : Session → Session × World
  | watching f json =>
    let (_, f, world) := f.meet world 0 h
    (watching f json, world)
  | s => (s, world.meet h)

/-- The session ends. -/
def finish (world : World) : Session → Session × World
  | watching f json =>
    let (f, world) := f.stop world
    (watching f json, world)
  | s => (s, world)

/-- The session through a script: a tick at once, and one after each happening. It ends with the
script or with a tick that fails, and in either case a watcher is stopped. -/
def play (world : World) (s : Session) : List Happening → Course
  | [] =>
    let (printed, s, world) := s.tick world
    let (s, world) := s.finish world
    ⟨[printed.lines], printed.failure, s, world⟩
  | h :: hs =>
    let (printed, s, world) := s.tick world
    match printed.failure with
    | some failure =>
      let (s, world) := s.finish world
      ⟨[printed.lines], some failure, s, world⟩
    | none =>
      let (s, world) := s.meet world h
      let course := s.play world hs
      { course with ticks := printed.lines :: course.ticks }

end Session

end FileWatch.CommandLine

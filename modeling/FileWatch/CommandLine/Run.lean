import FileWatch.CommandLine.HelpPage
import FileWatch.CommandLine.Invocation
import FileWatch.CommandLine.Session
import FileWatch.Services

/-! # Run — a command from start to end

`run` takes a command line to what it prints and to its exit status, given the world it starts in
and a script of what goes on while it runs. Commands that end by themselves have no use for the
script; the others are interrupted when it is over.
-/

namespace FileWatch.CommandLine

/-- What a command leaves behind. -/
structure Result where
  /-- The exit status. -/
  status : Nat
  /-- What it printed. -/
  output : String := ""
  /-- What it printed beside its output; `none` where the wording is left open. -/
  diagnostics : Option String := some ""
  deriving DecidableEq, Repr

/-- The name and version of the program. -/
def versionLine : String := "vigil 0.1.0\n"

/-- The exit status of a command that could not do its work. -/
def failureStatus : Nat := 1

/-- The exit status for a command line that is not well formed. -/
def usageStatus : Nat := 2

/-- The exit status of a command that broke off. -/
def crashStatus : Nat := 101

/-- What a command leaves behind that fails, after what it printed before. -/
def Result.ofFailure (f : Failure) (output diagnostics : String) : Result :=
  ⟨failureStatus, output, some (diagnostics ++ f.report)⟩

/-- The names from the home directory to the settings file. -/
def settingsPath : Path := Path.ofString ".config/vigil/config.toml"

/-- The settings file: the named one, or else the one in the home directory. -/
def Invocation.settingsFile (home : Path) (i : Invocation) : Path :=
  i.config.getD (home.join settingsPath)

/-- The paths that the command looks at, the settings file first. -/
def Invocation.paths (home : Path) (i : Invocation) : List Path :=
  i.settingsFile home :: match i.command with
    | .watch a => [a.path]
    | .poll a => a.paths
    | .config _ => []

/-- How a command line starts. -/
inductive Start where
  /-- It is over at once. -/
  | ended (r : Result)
  /-- It goes on at every tick of a timer, after what it says first. -/
  | session (s : Session) (world : World) (period : Duration) (diagnostics : String)
  deriving Repr

/-- A session on a timer. A timer needs a period: without one the command breaks off with the given
status. -/
def Start.timed (period : Duration) (status : Nat) (s : Session) (world : World)
    (diagnostics : String) : Start :=
  if period == Duration.zero then .ended ⟨status, "", none⟩
  else .session s world period diagnostics

/-- The time between ticks: the given one, or that of the settings. -/
def period (c : Config) (ms : Option UInt64) : Duration :=
  (ms.map fun n => Duration.ofMilliseconds n.toNat).getD c.pollInterval

/-- What `watch` says when the watch is established. -/
def watchingLine (p : Path) (k : BackendKind) : String :=
  bold "Watching" ++ " " ++ p.display ++ " " ++ dimmed ("(" ++ k.name ++ " backend)") ++ "\n"

/-- The options of a watch: those of the settings, and over them those of the command line. -/
def watchOptions (c : Config) (a : WatchArguments) : WatchOptions :=
  { c.options with
    recursive := c.options.recursive || a.recursive
    debounce := (a.debounceMs.map fun n => Duration.ofMilliseconds n.toNat).getD
      c.options.debounce }

/-- Starts `watch`. A single file that cannot be watched is looked at on every tick instead. -/
def startWatch (world : World) (c : Config) (a : WatchArguments) : Start :=
  match resolveEvents a.events c.events with
  | .error f => .ended (.ofFailure f "" "")
  | .ok events =>
    let options := watchOptions c a
    let watcher := if c.backend.isSome then c.watcher else Services.native.watcher
    let (established, watcher, world) := watcher.watch world ⟨a.path, events, options⟩
    if established then
      .timed (period c a.intervalMs) crashStatus (.watching watcher a.json) world
        (if a.json then "" else watchingLine a.path watcher.backend.kind)
    else if !options.recursive && world.disk.isFileAt a.path then
      let detector := ((Detector.ofMask a.path events).check world.disk).2
      .timed (period c a.intervalMs) crashStatus
        (.looking detector detector.signature.exists? a.json) world ""
    else .ended (.ofFailure (.cannotWatch a.path) "" "")

/-- Starts `poll`. -/
def startPoll (world : World) (c : Config) (a : PollArguments) : Start :=
  match resolveEvents a.events c.events with
  | .error f => .ended (.ofFailure f "" "")
  | .ok events =>
    let poller := a.paths.foldl (fun p path => p.track world.disk path events) Poller.empty
    .timed (period c a.intervalMs) failureStatus (.polling poller) world ""

/-- Where `config` found the settings. -/
def locationLine (d : Disk) (p : Path) : String :=
  dimmed "Location" ++ ": " ++ p.display
    ++ dimmed (if d.isThere p then "" else " (not found, using defaults)") ++ "\n"

/-- Runs `config`. -/
def runConfig (d : Disk) (p : Path) : ConfigView → Result
  | .sample => ⟨0, Config.sample, some ""⟩
  | .location => ⟨0, p.display ++ "\n", some ""⟩
  | .settings =>
    match loadConfig d p with
    | .error f => .ofFailure f "" ""
    | .ok c =>
      match c.toText with
      | .error e => .ofFailure (.settings e) "" (locationLine d p)
      | .ok text => ⟨0, text, some (locationLine d p)⟩

/-- Starts a command line. -/
def start (home : Path) (world : World) (args : List Argument) : Start :=
  match read args with
  | .malformed => .ended ⟨usageStatus, "", none⟩
  | .help g => .ended ⟨0, g.helpPage, some ""⟩
  | .version => .ended ⟨0, versionLine, some ""⟩
  | .done i =>
    let settings := i.settingsFile home
    match i.command with
    | .config view => .ended (runConfig world.disk settings view)
    | .watch a =>
      match loadConfig world.disk settings with
      | .error f => .ended (.ofFailure f "" "")
      | .ok c => startWatch world c a
    | .poll a =>
      match loadConfig world.disk settings with
      | .error f => .ended (.ofFailure f "" "")
      | .ok c => startPoll world c a

/-- Goes on through a script, at the end of which the command is interrupted. -/
def Start.finish (script : List Happening) : Start → Result
  | ended r => r
  | session s world _ diagnostics =>
    let course := s.play world script
    let output := String.join (course.ticks.flatten.map (· ++ "\n"))
    match course.failure with
    | some f => .ofFailure f output diagnostics
    | none => ⟨0, output, some diagnostics⟩

/-- Runs a command line from start to end. -/
def run (home : Path) (world : World) (script : List Happening) (args : List Argument) : Result :=
  (start home world args).finish script

end FileWatch.CommandLine

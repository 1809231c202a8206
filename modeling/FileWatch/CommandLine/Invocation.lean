import FileWatch.CommandLine.Arguments

/-! # Invocation — what a command line asks for

The program has three commands: `watch` reports the changes of one target, `poll` looks at files
at intervals, and `config` shows the settings. Options for the settings file and for more log
lines may stand before the command and after it; of two settings files the one after it counts.
-/

namespace FileWatch.CommandLine

/-- What `watch` is asked. -/
structure WatchArguments where
  path : Path
  recursive : Bool := false
  events : Option (List Char) := none
  debounceMs : Option UInt64 := none
  json : Bool := false
  intervalMs : Option UInt64 := none
  deriving DecidableEq, Repr

/-- What `poll` is asked. There is at least one path. -/
structure PollArguments where
  paths : List Path
  events : Option (List Char) := none
  intervalMs : Option UInt64 := none
  deriving DecidableEq, Repr

/-- What `config` shows. -/
inductive ConfigView where
  | sample
  | location
  | settings
  deriving DecidableEq, Repr

/-- A command with its arguments. -/
inductive Command where
  | watch (a : WatchArguments)
  | poll (a : PollArguments)
  | config (view : ConfigView)
  deriving DecidableEq, Repr

/-- A command, and the settings file if one was named. -/
structure Invocation where
  config : Option Path
  command : Command
  deriving DecidableEq, Repr

/-! ### The grammar -/

/-- The option for the settings file. Every level takes it. -/
def configOption : OptionSpec :=
  ⟨"config", none, .value .path, "Config file (default: <config dir>/vigil/config.toml)"⟩

/-- The option for more log lines. Every level takes it. -/
def verboseOption : OptionSpec :=
  ⟨"verbose", some 'v', .counter, "Increase log verbosity (-v info, -vv debug, -vvv trace)"⟩

/-- The option that asks for help. Every level takes it. -/
def helpOption : OptionSpec := ⟨"help", some 'h', .help, "Print help"⟩

/-- What `watch` takes. -/
def watchGrammar : Grammar where
  name := "vigil watch"
  about := "Watch a file or directory and print changes as they happen"
  operands := some { name := "PATH", about := "File or directory to watch" }
  options :=
    [configOption,
      ⟨"recursive", some 'r', .flag, "Include sub-directories"⟩,
      ⟨"events", none, .value .text,
        "Event classes, e.g. \"file_name,last_write\" (default: from config)"⟩,
      verboseOption,
      ⟨"debounce-ms", none, .value .number,
        "Coalesce repeated modifications within this window"⟩,
      ⟨"json", none, .flag, "Print one JSON object per line"⟩,
      ⟨"interval-ms", none, .value .number, "How often to drain pending notifications"⟩,
      helpOption]

/-- What `poll` takes. -/
def pollGrammar : Grammar where
  name := "vigil poll"
  about := "Poll files on an interval and print the ones that changed"
  operands := some { name := "PATHS", isRepeated := true, about := "Files to poll" }
  options :=
    [configOption,
      ⟨"events", none, .value .text, "Event classes to compare (default: from config)"⟩,
      ⟨"interval-ms", none, .value .number, "Poll interval"⟩,
      verboseOption, helpOption]

/-- What `config` takes. -/
def configGrammar : Grammar where
  name := "vigil config"
  about := "Show configuration"
  options :=
    [configOption,
      ⟨"example", none, .flag, "Print a commented example config"⟩,
      ⟨"path", none, .flag, "Print the config file location"⟩,
      verboseOption, helpOption]

/-- What `help` takes. -/
def helpGrammar : Grammar where
  name := "vigil help"
  about := "Print this message or the help of the given subcommand(s)"
  operands := some
    { name := "COMMAND", isRequired := false, isRepeated := true
      about := "Print help for the subcommand(s)" }

/-- The commands by name. -/
def commandGrammars : List (String × Grammar) :=
  [("watch", watchGrammar), ("poll", pollGrammar), ("config", configGrammar),
    ("help", helpGrammar)]

/-- What may stand before the command. -/
def topGrammar : Grammar where
  name := "vigil"
  about := "Vigil - watch files and directories for changes"
  commands := commandGrammars.map fun c => (c.1, c.2.about)
  options :=
    [configOption, verboseOption, helpOption, ⟨"version", some 'V', .version, "Print version"⟩]

/-- The command that an argument names. -/
def commandNamed? (a : Argument) : Option (String × Grammar) :=
  commandGrammars.find? fun c => Text.encode c.1.toList == a

/-! ### Settings by name -/

/-- The path given to an option. -/
def Progress.path? (p : Progress) (long : String) : Option Path :=
  p.settings.findSome? fun s =>
    match s with
    | .value l (.path q) => if l == long then some q else none
    | _ => none

/-- The text given to an option. -/
def Progress.text? (p : Progress) (long : String) : Option (List Char) :=
  p.settings.findSome? fun s =>
    match s with
    | .value l (.text t) => if l == long then some t else none
    | _ => none

/-- The number given to an option. -/
def Progress.number? (p : Progress) (long : String) : Option UInt64 :=
  p.settings.findSome? fun s =>
    match s with
    | .value l (.number n) => if l == long then some n else none
    | _ => none

/-- The operands, first to last. -/
def Progress.paths (p : Progress) : List Path :=
  p.settings.filterMap fun s =>
    match s with
    | .operand q => some q
    | _ => none

/-! ### Reading -/

/-- Reads all arguments of a command. -/
def readAll (g : Grammar) (args : List Argument) : Outcome Progress :=
  (readLevel g args {}).bind fun r => r.1.settle

/-- Reads the arguments of a command. The second component is the settings file named there. -/
def readCommand (name : String) (args : List Argument) : Outcome (Command × Option Path) :=
  match name with
  | "watch" =>
    (readAll watchGrammar args).bind fun p =>
      match p.paths with
      | [path] =>
        .done (.watch
          { path, recursive := p.has "recursive", events := p.text? "events"
            debounceMs := p.number? "debounce-ms", json := p.has "json"
            intervalMs := p.number? "interval-ms" }, p.path? "config")
      | _ => .malformed
  | "poll" =>
    (readAll pollGrammar args).bind fun p =>
      if p.paths.isEmpty then .malformed
      else .done (.poll
        { paths := p.paths, events := p.text? "events", intervalMs := p.number? "interval-ms" },
        p.path? "config")
  | "config" =>
    (readAll configGrammar args).bind fun p =>
      match p.has "example", p.has "path" with
      | true, true => .malformed
      | true, false => .done (.config .sample, p.path? "config")
      | false, true => .done (.config .location, p.path? "config")
      | false, false => .done (.config .settings, p.path? "config")
  | _ =>
    match args with
    | [] => .help topGrammar
    | [a] =>
      match commandNamed? a with
      | some c => .help c.2
      | none => .malformed
    | _ => .malformed

/-- Reads a command line. -/
def read (args : List Argument) : Outcome Invocation :=
  (readLevel topGrammar args {}).bind fun (top, rest) =>
    match rest with
    | [] => .malformed
    | a :: rest =>
      match commandNamed? a with
      | none => .malformed
      | some c =>
        (readCommand c.1 rest).bind fun (command, config) =>
          top.settle.bind fun top => .done ⟨config.or (top.path? "config"), command⟩

end FileWatch.CommandLine

import FileWatch.Config
import FileWatch.Toml.Reader

/-! # Text — settings as text

Settings are written as a document of keys and values, one to a line. `ofText` reads such a
document, in which any setting may be missing and no other key may occur; `toText` writes one with
all of them, except for a mechanism that is left to the system. A number that is too large for a
document cannot be written.
-/

namespace FileWatch

/-- Why settings cannot be read or written. -/
inductive ConfigError where
  /-- The file cannot be read. -/
  | io (path : Path) (fault : DiskFault)
  /-- The text is no document of settings. -/
  | parse
  /-- A number has no written form. -/
  | serialize
  | invalid (fault : ConfigFault)
  deriving DecidableEq, Repr

namespace ConfigError

/-- The opening words of every report on a text that is no document. The rest of such a report
depends on the reader of documents and is not kept. -/
def parseReport : String := "TOML parse error"

/-- The wording of an error. -/
def message : ConfigError → String
  | io path fault => "failed to read config file " ++ path.display ++ ": " ++ fault.message
  | parse => "failed to parse config: " ++ parseReport
  | serialize => "failed to serialize config: out-of-range value for u64 type"
  | invalid fault => fault.message

/-- The wording of the error and of those behind it, outermost first. -/
def chain (e : ConfigError) : List String :=
  e.message :: match e with
    | io _ fault => [fault.message]
    | parse => [parseReport]
    | serialize => ["out-of-range value for u64 type"]
    | invalid _ => []

end ConfigError

namespace Config

open Toml (Node Member)

/-- A mechanism: its name, or a table whose one key is its name and whose value is empty. -/
def backendOf? : Node → Option BackendKind
  | .string s => BackendKind.ofName? s
  | .table _ [(key, .array [])] => BackendKind.ofName? key
  | .table _ [(key, .table _ [])] => BackendKind.ofName? key
  | _ => none

/-- A mask in its written form. -/
def eventsOf? : Node → Option EventMask
  | .string s => (EventMask.ofText s).toOption
  | _ => none

/-- A truth value. -/
def booleanOf? : Node → Option Bool
  | .boolean b => some b
  | _ => none

/-- A number from zero up to a bound. -/
def numberOf? (bound : Nat) : Node → Option Nat
  | .integer (.ofNat n) => if n < bound then some n else none
  | _ => none

/-- Sets one setting. -/
def set? (c : Config) (m : Member) : Option Config :=
  match String.ofList m.1 with
  | "backend" => (backendOf? m.2).map fun k => { c with backend := some k }
  | "events" => (eventsOf? m.2).map fun e => { c with events := e }
  | "recursive" => (booleanOf? m.2).map fun b => { c with recursive := b }
  | "buffer_size" =>
    (numberOf? UInt32.size m.2).map fun n => { c with bufferSize := UInt32.ofNat n }
  | "debounce_ms" =>
    (numberOf? UInt64.size m.2).map fun n => { c with debounceMs := UInt64.ofNat n }
  | "poll_interval_ms" =>
    (numberOf? UInt64.size m.2).map fun n => { c with pollIntervalMs := UInt64.ofNat n }
  | _ => none

/-- The settings of a document, over the defaults. -/
def ofMembers? (members : List Member) : Option Config := members.foldlM set? {}

/-- Reads settings and checks their ranges. -/
def ofText (s : List Char) : Except ConfigError Config :=
  match (Toml.parse? s).bind ofMembers? with
  | none => .error .parse
  | some c =>
    match c.fault? with
    | some fault => .error (.invalid fault)
    | none => .ok c

/-- A line of a document. -/
def line (key value : String) : String := key ++ " = " ++ value ++ "\n"

/-- A value in quotation marks. The names of mechanisms and the written forms of masks need no
escapes. -/
def quoted (s : String) : String := "\"" ++ s ++ "\""

/-- A truth value as it is written. -/
def booleanText (b : Bool) : String := if b then "true" else "false"

/-- Whether every number has a written form. -/
def isWritable (c : Config) : Bool :=
  c.debounceMs.toNat ≤ Toml.largest && c.pollIntervalMs.toNat ≤ Toml.largest

/-- Writes settings as a document. -/
def toText (c : Config) : Except ConfigError String :=
  if !c.isWritable then .error .serialize
  else .ok <|
    (c.backend.map fun k => line "backend" (quoted k.name)).getD ""
      ++ line "events" (quoted c.events.toText)
      ++ line "recursive" (booleanText c.recursive)
      ++ line "buffer_size" (toString c.bufferSize.toNat)
      ++ line "debounce_ms" (toString c.debounceMs.toNat)
      ++ line "poll_interval_ms" (toString c.pollIntervalMs.toNat)

/-- Reads and checks the settings in a file. A file that is not there holds the defaults. -/
def load (d : Disk) (p : Path) : Except ConfigError Config :=
  match d.read p with
  | .error .notFound => .ok {}
  | .error fault => .error (.io p fault)
  | .ok bytes =>
    match Text.decode? bytes with
    | none => .error (.io p .notText)
    | some s => ofText s

/-- The lines of a document that sets every setting to its default and says what each is for. -/
def sampleLines : List String :=
  ["# Vigil watcher configuration",
    "",
    "# Backend: \"unix\", \"windows\" or \"stub\". Omit to use the platform default.",
    "# backend = \"unix\"",
    "",
    "# Event classes to report, in bitflags text form.",
    "# FILE_NAME | DIR_NAME | ATTRIBUTES | SIZE | LAST_WRITE | LAST_ACCESS | CREATION | SECURITY",
    "events = \"FILE_NAME | DIR_NAME | SIZE | LAST_WRITE\"",
    "",
    "# Watch the whole subtree instead of direct children only",
    "recursive = false",
    "",
    "# Native buffer hint in bytes (1024..=1048576)",
    "buffer_size = 16384",
    "",
    "# Coalesce repeated modifications of one path within this window (0 disables)",
    "debounce_ms = 0",
    "",
    "# Detection cycle period when polling (10..=3600000)",
    "poll_interval_ms = 500"]

/-- The sample document. -/
def sample : String := String.join (sampleLines.map (· ++ "\n"))

end Config

end FileWatch

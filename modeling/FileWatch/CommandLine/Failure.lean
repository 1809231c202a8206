import FileWatch.Config.Text
import FileWatch.EventMask.FlagList

/-! # Failure — why a command fails

A failure is reported with its causes, outermost first. A single cause stands alone, several are
numbered.
-/

namespace FileWatch.CommandLine

/-- Why a command fails. -/
inductive Failure where
  /-- The settings file cannot be used. -/
  | config (path : Path) (error : ConfigError)
  /-- The settings cannot be written. -/
  | settings (error : ConfigError)
  | unknownEvent (name : String)
  | noEvents
  | cannotWatch (path : Path)
  /-- A notification has no JSON form because its path is no text. -/
  | notText
  deriving DecidableEq, Repr

namespace Failure

/-- The wording of a failure and of its causes, outermost first. -/
def chain : Failure → List String
  | config path error => ("Failed to load config from " ++ path.display) :: error.chain
  | settings error => error.chain
  | unknownEvent name => ["Unknown event class: " ++ name]
  | noEvents => ["--events needs at least one event class"]
  | cannotWatch path => ["Failed to watch " ++ path.display]
  | notText => ["Failed to serialize notification", "path contains invalid UTF-8 characters"]

/-- A cause with its lines set in. -/
def setIn (first rest cause : String) : String :=
  first ++ ("\n" ++ rest).intercalate (cause.splitOn "\n") ++ "\n"

/-- The causes below a failure, one to a line. -/
def causes : List String → String
  | [] => ""
  | [cause] => setIn "    " "    " cause
  | several =>
    String.join (several.zipIdx.map fun c => setIn ("    " ++ toString c.2 ++ ": ") "       " c.1)

/-- The report on a chain. -/
def reportChain : List String → String
  | [] => ""
  | first :: rest =>
    "Error: " ++ first ++ "\n" ++ if rest.isEmpty then "" else "\nCaused by:\n" ++ causes rest

/-- What a text has up to the words that open a report on a text that is no document. The rest of
such a report is not kept, and neither is what follows it. -/
def untilParseReport (s : String) : String :=
  match s.splitOn ConfigError.parseReport with
  | before :: _ :: _ => before ++ ConfigError.parseReport
  | _ => s

/-- The report on a failure. -/
def report (f : Failure) : String :=
  match f with
  | config _ .parse => untilParseReport (reportChain f.chain)
  | f => reportChain f.chain

end Failure

/-- Reads the settings that a command uses. -/
def loadConfig (d : Disk) (p : Path) : Except Failure Config :=
  match Config.load d p with
  | .ok c => .ok c
  | .error e => .error (.config p e)

/-- The classes of change that a command uses: those of its list, or else the given ones. -/
def resolveEvents (list : Option (List Char)) (standard : EventMask) : Except Failure EventMask :=
  match list with
  | none => .ok standard
  | some s =>
    match EventMask.ofFlagList s with
    | .error e => .error (.unknownEvent e.name)
    | .ok m => if m.isEmpty then .error .noEvents else .ok m

end FileWatch.CommandLine

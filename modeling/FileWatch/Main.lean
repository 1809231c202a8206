import FileWatch.CommandLine.Run

/-! # Main — the command line

Reads the files that a command line names, runs it on them, and prints. `watch` and `poll` go on
until the program is interrupted, and see the disk anew at every tick. Handles of the operating
system are not within reach here, so a watch of a directory stays silent.
-/

namespace FileWatch.CommandLine

/-- The entry at a place to which no link leads. A link at the place itself is given the end of its
chain as its text. -/
def entryAt (place : Place) : IO (Option Entry) := do
  let name := (Path.ofNames place).display
  let real ← (IO.FS.realPath name).toBaseIO
  match real with
  | .error _ => return none
  | .ok real =>
    if real.toString != name then return some (.link (Path.ofString real.toString))
    let status ← real.metadata
    if status.type == .dir then return some .directory
    let content ← if status.type == .file then IO.FS.readBinFile real else return none
    return some (.file content.toList ⟨status.modified.sec, status.modified.nsec.toNat⟩)

/-- Adds to a disk what names lead to from a place. -/
def lookAlong (d : Disk) (place : Place) : List Name → IO Disk
  | [] => return d
  | n :: rest => do
    if !Path.isName n then lookAlong d place rest
    else if n == Path.dotDot then lookAlong d place.dropLast rest
    else
      match ← entryAt (place ++ [n]) with
      | none => return d
      | some (.link target) =>
        let below := target.pieces.filter Path.isName
        let d := (List.range below.length).foldl
          (fun d k => d.put (below.take (k + 1)) .directory) (d.put (place ++ [n]) (.link target))
        match ← entryAt below with
        | some e => lookAlong (d.put below e) below rest
        | none => return d
      | some e => lookAlong (d.put (place ++ [n]) e) (place ++ [n]) rest

/-- The disk as far as some paths lead. -/
def lookAt (paths : List Path) : IO Disk := do
  match ← IO.currentDir.toBaseIO with
  | .ok name =>
    let here := (Path.ofString name.toString).pieces.filter Path.isName
    let d ← lookAlong { current := .here here } [] here
    paths.foldlM (fun d p => lookAlong d (if p.isAbsolute then [] else here) p.pieces) d
  | .error _ =>
    let paths := paths.filter Path.isAbsolute
    paths.foldlM (fun d p => lookAlong d [] p.pieces) { current := .removed [] }

/-- What is said where the wording of diagnostics is left open. -/
def openWording (r : Result) : String :=
  if r.status == usageStatus then topGrammar.helpPage
  else "The timer needs a period.\n"

/-- Prints to both outputs. -/
def say (output diagnostics : String) : IO Unit := do
  IO.print output
  IO.eprint diagnostics
  (← IO.getStdout).flush

/-- A session from tick to tick. -/
partial def goOn (paths : List Path) (period : Duration) (world : World) (s : Session) :
    IO UInt32 := do
  let (printed, s, world) := s.tick { world with disk := ← lookAt paths }
  say (String.join (printed.lines.map (· ++ "\n"))) ""
  match printed.failure with
  | some f =>
    say "" f.report
    return UInt32.ofNat failureStatus
  | none =>
    IO.sleep (UInt32.ofNat period.milliseconds)
    goOn paths period world s

/-- Runs the command line of the program. -/
def execute (args : List String) : IO UInt32 := do
  let args := args.map fun a => Text.encode a.toList
  let home := Path.ofString ((← IO.getEnv "HOME").getD "")
  let paths := match read args with
    | .done i => i.paths home
    | _ => []
  match start home { disk := ← lookAt paths } args with
  | .ended r =>
    say r.output (r.diagnostics.getD (openWording r))
    return UInt32.ofNat r.status
  | .session s world period diagnostics =>
    say "" diagnostics
    goOn paths period world s

end FileWatch.CommandLine

def main (args : List String) : IO UInt32 := FileWatch.CommandLine.execute args

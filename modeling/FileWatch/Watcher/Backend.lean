import FileWatch.Native.Watch
import FileWatch.Watcher.Rehearsal

/-! # Backend — the mechanism behind a watcher

A backend is a native watch under one of the policies, the stub that refuses every watch, or a
rehearsed one. Draining a backend polls it until nothing is left. It ends, because a poll that
returns something makes `weight` smaller (`weight_poll_lt`): a poll may reopen a handle and queue
the root, but then no rearm is pending any more.
-/

namespace FileWatch

/-- A mechanism for watching, with its state. -/
inductive Backend where
  | native (policy : NativePolicy) (watch : NativeWatch)
  | stub
  | rehearsal (rehearsal : Rehearsal)
  deriving Repr

namespace Backend

/-- A native backend that was never used. -/
def ofPolicy (p : NativePolicy) : Backend := native p NativeWatch.fresh

/-- The backend of a kind on a system with the handles of Unix. The kinds that are not there are
replaced by the stub. -/
def ofKind : BackendKind → Backend
  | .unix => ofPolicy .unix
  | .windows | .stub => stub

/-- The backend of this system. -/
def standard : Backend := ofPolicy .unix

/-- Which mechanism a backend presents itself as. -/
def kind : Backend → BackendKind
  | native p _ => p.kind
  | stub => .stub
  | rehearsal _ => .stub

/-- The classes of change that the backend can observe. -/
def supported : Backend → EventMask
  | native p _ => p.supported
  | stub => .empty
  | rehearsal b => b.supported

/-- The stage of the watch. -/
def stage : Backend → Stage
  | native _ w => w.stage
  | stub => .idle
  | rehearsal b => b.stage

/-- What is queued. -/
def queue : Backend → Queue
  | native _ w => w.queue
  | stub => Queue.empty
  | rehearsal b => b.queue

/-- How many notifications wait. -/
def pending (b : Backend) : Nat := b.queue.length

/-- Whether a handle is to be opened again. -/
def rearmPending : Backend → Bool
  | native _ w => w.rearmPending
  | _ => false

/-- Goes on with a stopped watch. -/
def start (world : World) : Backend → Backend × World
  | native p w => ((w.start p world).map (native p) id)
  | stub => (stub, world)
  | rehearsal b => ((b.start world).map rehearsal id)

/-- Stops the watch and discards what is queued. -/
def stop (world : World) : Backend → Backend × World
  | native p w => ((w.stop world).map (native p) id)
  | stub => (stub, world)
  | rehearsal b => ((b.stop world).map rehearsal id)

/-- Watches another target. The answer says whether the watch is established. -/
def watch (world : World) (r : WatchRequest) : Backend → Bool × Backend × World
  | native p w => (w.watch p world r).map id fun s => (native p s.1, s.2)
  | stub => (false, stub, world)
  | rehearsal b => (b.watch world r).map id fun s => (rehearsal s.1, s.2)

/-- Takes the oldest notification. -/
def poll (world : World) : Backend → Option Notification × Backend × World
  | native p w => (w.poll p world).map id fun s => (native p s.1, s.2)
  | stub => (none, stub, world)
  | rehearsal b => (b.poll.1, rehearsal b.poll.2, world)

/-- The live handle, if there is one, delivers an event. -/
def deliver (world : World) (now : Nat) (e : NativeEvent) : Backend → Bool × Backend × World
  | native p w => (w.deliver p world now e).map id fun s => (native p s.1, s.2)
  | b => (false, b, world)

/-- The live handle, if there is one, reports a failure. -/
def deliverError (world : World) (e : NativeError) : Backend → Bool × Backend × World
  | native p w => (w.deliverError p world e).map id fun s => (native p s.1, s.2)
  | b => (false, b, world)

/-- The live handle, if there is one, goes silent. -/
def lose : Backend → Bool × Backend
  | native p w => w.lose.map id (native p)
  | b => (false, b)

/-- What is queued, and one more if a handle is to be opened again. -/
def weight (b : Backend) : Nat := b.pending + b.rearmPending.toNat

end Backend

theorem Queue.length_poll_lt {q : Queue} {n : Notification} (h : q.poll.1 = some n) :
    q.poll.2.length < q.length := by
  cases q with
  | mk l => cases l <;> simp_all [Queue.poll, Queue.length]

/-- A poll that returns a notification leaves less to poll. -/
theorem Backend.weight_poll_lt {b b' : Backend} {world world' : World} {n : Notification}
    (h : b.poll world = (some n, b', world')) : b'.weight < b.weight := by
  cases b with
  | native p w =>
    have hle := NativeWatch.length_rearmIfPending p w world
    simp only [Backend.poll, NativeWatch.poll, Prod.map, Prod.mk.injEq, id] at h
    obtain ⟨hn, rfl, -⟩ := h
    have hlt := Queue.length_poll_lt hn
    simp only [Backend.weight, Backend.pending, Backend.queue, Backend.rearmPending]
    omega
  | stub => simp [Backend.poll] at h
  | rehearsal b =>
    simp only [Backend.poll, Rehearsal.poll, Prod.mk.injEq] at h
    obtain ⟨hn, rfl, -⟩ := h
    have hlt := Queue.length_poll_lt hn
    simpa [Backend.weight, Backend.pending, Backend.queue, Backend.rearmPending] using hlt

/-- Polls a backend until it returns nothing. -/
def Backend.drain (b : Backend) (world : World) : List Notification × Backend × World :=
  match h : b.poll world with
  | (none, b, world) => ([], b, world)
  | (some n, b', world') =>
    have : b'.weight < b.weight := Backend.weight_poll_lt h
    let (ns, b, world) := b'.drain world'
    (n :: ns, b, world)
termination_by b.weight

end FileWatch

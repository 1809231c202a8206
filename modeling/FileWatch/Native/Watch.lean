import FileWatch.Native.Listener
import FileWatch.Native.World
import FileWatch.Queue

/-! # Watch — the life of a native watch

A `NativeWatch` serves one request at a time through one native handle. The operating systems
differ in a `NativePolicy`: what their handles can observe, whether a target must be a directory,
and whether a handle that lost its root is opened again. On a policy that rearms, the loss of the
root raises `rearmPending`, and the next detection cycle, a `poll` or a `start`, reopens the handle
once the target is back.
-/

namespace FileWatch

/-- The mechanisms that a watch can be built on. -/
inductive BackendKind where
  | windows
  | unix
  /-- No native support: every watch fails. -/
  | stub
  deriving DecidableEq, Repr

/-- The name of a mechanism. -/
def BackendKind.name : BackendKind → String
  | windows => "windows"
  | unix => "unix"
  | stub => "stub"

/-- The mechanism of a name. -/
def BackendKind.ofName? (s : List Char) : Option BackendKind :=
  [windows, unix, stub].find? fun k => k.name.toList == s

/-- The stages of a watch. `starting` and `stopping` last no longer than a call. -/
inductive Stage where
  | idle
  | starting
  | running
  | stopping
  deriving DecidableEq, Repr

/-- The name of a stage. -/
def Stage.name : Stage → String
  | idle => "Idle"
  | starting => "Starting"
  | running => "Running"
  | stopping => "Stopping"

/-- What native watches of one operating system have in common. -/
structure NativePolicy where
  kind : BackendKind
  /-- The classes of change that a handle can observe. -/
  supported : EventMask
  /-- Whether only directories can be watched. -/
  needsDirectory : Bool
  /-- Whether a handle that lost its root is opened again. -/
  rearms : Bool
  deriving DecidableEq, Repr

namespace NativePolicy

/-- Handles bound to the entry itself, which go silent when it is removed or renamed. -/
def unix : NativePolicy :=
  { kind := .unix, supported := .ofClasses [.fileName, .dirName, .attributes, .size, .lastWrite,
      .security], needsDirectory := false, rearms := true }

/-- Handles on directories only, which stay valid. -/
def windows : NativePolicy :=
  { kind := .windows, supported := .ofClasses [.fileName, .dirName, .attributes, .size, .lastWrite,
      .creation, .security], needsDirectory := true, rearms := false }

/-- Checks the target of a request and resolves the root to watch. -/
def validate (p : NativePolicy) (d : Disk) (r : WatchRequest) : Except WatchError Path :=
  if r.path.isEmpty then .error .emptyPath
  else match d.status r.path with
    | .error _ => .error (.missing r.path)
    | .ok e =>
      if (p.needsDirectory || r.options.recursive) && !e.isDirectory then
        .error (.notADirectory r.path)
      else .ok (d.resolve r.path)

end NativePolicy

/-- The state of a native watch. -/
structure NativeWatch where
  queue : Queue := Queue.empty
  stage : Stage := .idle
  /-- What is watched, kept while the watch is stopped. -/
  request : Option WatchRequest := none
  /-- The resolved root of the handle. -/
  root : Option Path := none
  /-- The filters of the handle, while one is open. -/
  listener : Option Listener := none
  /-- Whether the handle is to be opened again. -/
  rearmPending : Bool := false
  deriving Repr

namespace NativeWatch

variable (p : NativePolicy)

/-- The watch that was never used. -/
def fresh : NativeWatch := {}

/-- Validates a request and opens a handle for it. The queue stays as it is. -/
def establish (w : NativeWatch) (world : World) (r : WatchRequest) :
    Except WatchError Path × NativeWatch × World :=
  match p.validate world.disk r with
  | .error e => (.error e, { w with stage := .idle }, world)
  | .ok root =>
    match world.acquire root r.options.recursive with
    | (some e, world) => (.error (.native e), { w with stage := .idle }, world)
    | (none, world) =>
      let listener := Listener.fresh ⟨root, r.options.recursive⟩ (r.events &&& p.supported)
        r.options.debounce
      (.ok root, { w with listener := some listener, root := some root, stage := .running }, world)

/-- Closes the handle, if one is open. The queue is emptied only on demand. -/
def teardown (w : NativeWatch) (world : World) (emptyQueue : Bool) : NativeWatch × World :=
  ({ w with
      listener := none, root := none, stage := .idle
      queue := if emptyQueue then Queue.empty else w.queue },
    if w.listener.isSome then world.note .closed else world)

/-- Stops the watch and discards what is queued. The request is kept. -/
def stop (w : NativeWatch) (world : World) : NativeWatch × World :=
  let (w, world) := w.teardown world true
  ({ w with rearmPending := false }, world)

/-- Serves another request in place of the one before. -/
def replace (w : NativeWatch) (world : World) (r : WatchRequest) : Bool × NativeWatch × World :=
  let (w, world) := w.teardown world true
  match establish p { w with request := none } world r with
  | (.ok _, w, world) => (true, { w with request := some r }, world)
  | (.error e, w, world) => (false, w, world.note (.refused e))

/-- Stops, and serves another request. The answer says whether the watch is established. -/
def watch (w : NativeWatch) (world : World) (r : WatchRequest) : Bool × NativeWatch × World :=
  let (w, world) := w.stop world
  replace p w world r

/-- Opens a handle for the kept request, unless one is open. -/
def resume (w : NativeWatch) (world : World) : NativeWatch × World :=
  if w.listener.isSome then (w, world)
  else match w.request with
    | none => (w, world)
    | some r =>
      match establish p w world r with
      | (.ok _, w, world) => (w, world)
      | (.error e, w, world) => (w, world.note (.refused e))

/-- Opens the handle again. The old one is kept until the target is back, and on success the root
is reported as added: its return was seen by no handle. -/
def rearm (w : NativeWatch) (world : World) (r : WatchRequest) :
    Option WatchError × NativeWatch × World :=
  match p.validate world.disk r with
  | .error e => (some e, w, world)
  | .ok _ =>
    let (w, world) := w.teardown world false
    match establish p w world r with
    | (.ok root, w, world) => (none, { w with queue := w.queue.push ⟨.added, root⟩ }, world)
    | (.error e, w, world) => (some e, w, world)

/-- What a detection cycle starts with: a handle that lost its root is opened again, or stays to be
opened again. -/
def rearmIfPending (w : NativeWatch) (world : World) : NativeWatch × World :=
  if !w.rearmPending then (w, world)
  else match w.request with
    | none => ({ w with rearmPending := false }, world)
    | some r =>
      match rearm p { w with rearmPending := false } world r with
      | (none, w, world) => (w, world)
      | (some e, w, world) => ({ w with rearmPending := true }, world.note (.refused e))

/-- Goes on with a stopped watch. -/
def start (w : NativeWatch) (world : World) : NativeWatch × World :=
  let (w, world) := rearmIfPending p w world
  resume p w world

/-- Takes the oldest notification. -/
def poll (w : NativeWatch) (world : World) : Option Notification × NativeWatch × World :=
  let (w, world) := rearmIfPending p w world
  let (n, queue) := w.queue.poll
  (n, { w with queue }, world)

/-- The listener whose handle still delivers. -/
def live? (w : NativeWatch) : Option Listener := w.listener.filter Listener.connected

/-- The handle delivers an event at the time `now`. The answer says whether there was one to
deliver it. -/
def deliver (w : NativeWatch) (world : World) (now : Nat) (e : NativeEvent) :
    Bool × NativeWatch × World :=
  match w.live? with
  | none => (false, w, world)
  | some l =>
    let (batch, listener) := l.handle world.disk now e
    (true,
      { w with
        listener := some listener
        queue := w.queue.extend batch
        rearmPending := w.rearmPending || (p.rearms && invalidatesRoot l.scope e) },
      if e.rescan then world.note .overflowed else world)

/-- The handle reports a failure. -/
def deliverError (w : NativeWatch) (world : World) (e : NativeError) :
    Bool × NativeWatch × World :=
  match w.live? with
  | none => (false, w, world)
  | some l =>
    (true, { w with rearmPending := w.rearmPending || (p.rearms && e.losesRoot l.scope) },
      world.note (.reported e))

/-- The handle goes silent without a word. -/
def lose (w : NativeWatch) : Bool × NativeWatch :=
  match w.live? with
  | none => (false, w)
  | some l => (true, { w with listener := some { l with connected := false } })

/-! ### What the steps leave alone -/

@[simp] theorem queue_establish (w : NativeWatch) (world : World) (r : WatchRequest) :
    (establish p w world r).2.1.queue = w.queue := by
  unfold establish
  repeat' split
  all_goals rfl

@[simp] theorem request_establish (w : NativeWatch) (world : World) (r : WatchRequest) :
    (establish p w world r).2.1.request = w.request := by
  unfold establish
  repeat' split
  all_goals rfl

@[simp] theorem rearmPending_establish (w : NativeWatch) (world : World) (r : WatchRequest) :
    (establish p w world r).2.1.rearmPending = w.rearmPending := by
  unfold establish
  repeat' split
  all_goals rfl

/-- A rearm queues the root when it succeeds, and nothing otherwise. -/
theorem queue_rearm (w : NativeWatch) (world : World) (r : WatchRequest) :
    ∃ batch : List Notification, (rearm p w world r).2.1.queue = w.queue.extend batch
      ∧ batch.length = if (rearm p w world r).1.isSome then 0 else 1 := by
  unfold rearm
  cases p.validate world.disk r with
  | error e => exact ⟨[], by simp [Queue.extend], rfl⟩
  | ok _ =>
    have hq := queue_establish p (w.teardown world false).1 (w.teardown world false).2 r
    rcases he : establish p (w.teardown world false).1 (w.teardown world false).2 r with
      ⟨e | root, w', world'⟩
    · rw [he] at hq
      exact ⟨[], by simp_all [Queue.extend, teardown], by simp [he]⟩
    · rw [he] at hq
      exact ⟨[⟨.added, root⟩], by simp_all [Queue.push, teardown], by simp [he]⟩

theorem rearmPending_rearm (w : NativeWatch) (world : World) (r : WatchRequest) :
    (rearm p w world r).2.1.rearmPending = w.rearmPending := by
  unfold rearm
  cases p.validate world.disk r with
  | error e => rfl
  | ok _ =>
    have hq := rearmPending_establish p (w.teardown world false).1 (w.teardown world false).2 r
    rcases he : establish p (w.teardown world false).1 (w.teardown world false).2 r with
      ⟨e | root, w', world'⟩ <;> rw [he] at hq <;> simp only [he] <;> exact hq

/-- The start of a detection cycle queues no more than the root, and that only when it clears a
pending rearm. -/
theorem length_rearmIfPending (w : NativeWatch) (world : World) :
    (rearmIfPending p w world).1.queue.length + (rearmIfPending p w world).1.rearmPending.toNat
      ≤ w.queue.length + w.rearmPending.toNat := by
  unfold rearmIfPending
  split
  · exact Nat.le_refl _
  · rename_i hp
    replace hp : w.rearmPending = true := by simpa using hp
    split
    · simp
    · rename_i r _
      obtain ⟨batch, hq, hl⟩ := queue_rearm p { w with rearmPending := false } world r
      have hr := rearmPending_rearm p { w with rearmPending := false } world r
      generalize rearm p { w with rearmPending := false } world r = outcome at hq hl hr
      rcases outcome with ⟨_ | e, w', world'⟩ <;> simp_all [Queue.length, Queue.extend]

end NativeWatch

end FileWatch

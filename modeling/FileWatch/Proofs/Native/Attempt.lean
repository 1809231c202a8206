import FileWatch.Native.Watch

/-! # Attempt — opening a handle for a request

Every call that opens a handle goes through `establish`. What comes of it depends on the request and
on the world, and on nothing that the watch holds: `attempt` is that part. `establish_eq` splits
`establish` into an attempt and what it leaves in the watch, and from it each call of a watch gets
one equation for each way in which it can end.
-/

namespace FileWatch

namespace World

/-- Whether the next native handle will open and take its path. -/
def opensHandles (world : World) : Bool := world.openFault.isNone && world.registerFault.isNone

theorem acquire_of_opens {world : World} (h : world.opensHandles = true) (root : Path)
    (recursive : Bool) : world.acquire root recursive =
      (none, (world.note .opened).note (.registered root recursive)) := by
  obtain ⟨hopen, hregister⟩ : world.openFault = none ∧ world.registerFault = none := by
    simpa [opensHandles] using h
  rw [acquire, hopen, hregister]

theorem acquire_of_not_opens {world : World} (h : world.opensHandles = false) (root : Path)
    (recursive : Bool) : ∃ e, (world.acquire root recursive).1 = some e := by
  unfold acquire
  cases hopen : world.openFault with
  | some e => exact ⟨e, rfl⟩
  | none =>
    cases hregister : world.registerFault with
    | some e => exact ⟨e, rfl⟩
    | none => simp [opensHandles, hopen, hregister] at h

end World

namespace NativeWatch

variable (p : NativePolicy)

/-- What comes of opening a handle for a request, and the world after it. -/
def attempt (world : World) (r : WatchRequest) : Except WatchError Path × World :=
  match p.validate world.disk r with
  | .error e => (.error e, world)
  | .ok root =>
    match world.acquire root r.options.recursive with
    | (some e, world) => (.error (.native e), world)
    | (none, world) => (.ok root, world)

/-- The listener of a handle that was just opened on a root for a request. -/
def listenerFor (r : WatchRequest) (root : Path) : Listener :=
  Listener.fresh ⟨root, r.options.recursive⟩ (r.events &&& p.supported) r.options.debounce

/-- The watch with a handle that was just opened. -/
def opened (w : NativeWatch) (r : WatchRequest) (root : Path) : NativeWatch :=
  { w with listener := some (listenerFor p r root), root := some root, stage := .running }

/-- The watch without its handle. -/
def closed (w : NativeWatch) : NativeWatch :=
  { w with listener := none, root := none, stage := .idle }

/-- The world once the handle of the watch is closed, if it has one. -/
def released (w : NativeWatch) (world : World) : World :=
  if w.listener.isSome then world.note .closed else world

/-- The watch that serves a request from a root and has seen nothing yet. -/
def serving (r : WatchRequest) (root : Path) : NativeWatch :=
  opened p { fresh with request := some r } r root

variable {p}

/-! ### What comes of an attempt -/

theorem attempt_of_invalid {world : World} {r : WatchRequest} {e : WatchError}
    (h : p.validate world.disk r = .error e) : attempt p world r = (.error e, world) := by
  rw [attempt, h]

theorem attempt_of_opens {world : World} {r : WatchRequest} {root : Path}
    (h : p.validate world.disk r = .ok root) (hopens : world.opensHandles = true) :
    attempt p world r =
      (.ok root, (world.note .opened).note (.registered root r.options.recursive)) := by
  rw [attempt, h]
  simp only [World.acquire_of_opens hopens]

theorem attempt_of_not_opens {world : World} {r : WatchRequest} {root : Path}
    (h : p.validate world.disk r = .ok root) (hopens : world.opensHandles = false) :
    ∃ e, attempt p world r = (.error (.native e), (world.acquire root r.options.recursive).2) := by
  obtain ⟨e, he⟩ := World.acquire_of_not_opens hopens root r.options.recursive
  refine ⟨e, ?_⟩
  rw [attempt, h]
  simp only
  rcases hacquire : world.acquire root r.options.recursive with ⟨fault, after⟩
  rw [hacquire] at he
  obtain rfl : fault = some e := he
  rfl

/-- An attempt succeeds when its target is valid and the handle opens. -/
theorem attempt_ok_iff {world after : World} {r : WatchRequest} {root : Path} :
    attempt p world r = (.ok root, after) ↔
      p.validate world.disk r = .ok root ∧ world.opensHandles = true
        ∧ after = (world.note .opened).note (.registered root r.options.recursive) := by
  constructor
  · intro h
    cases hvalid : p.validate world.disk r with
    | error e => rw [attempt_of_invalid hvalid] at h; cases h
    | ok root' =>
      cases hopens : world.opensHandles with
      | false =>
        obtain ⟨e, he⟩ := attempt_of_not_opens hvalid hopens
        rw [he] at h; cases h
      | true => rw [attempt_of_opens hvalid hopens] at h; cases h; exact ⟨rfl, rfl, rfl⟩
  · rintro ⟨hvalid, hopens, rfl⟩
    exact attempt_of_opens hvalid hopens

/-- An attempt fails on its target, and then nothing was opened, or on the handle. -/
theorem attempt_error {world after : World} {r : WatchRequest} {e : WatchError}
    (h : attempt p world r = (.error e, after)) :
    (p.validate world.disk r = .error e ∧ after = world) ∨
      ∃ root, p.validate world.disk r = .ok root ∧ world.opensHandles = false
        ∧ after = (world.acquire root r.options.recursive).2 := by
  cases hvalid : p.validate world.disk r with
  | error e' => rw [attempt_of_invalid hvalid] at h; cases h; exact .inl ⟨rfl, rfl⟩
  | ok root =>
    cases hopens : world.opensHandles with
    | true => rw [attempt_of_opens hvalid hopens] at h; cases h
    | false =>
      obtain ⟨e', he⟩ := attempt_of_not_opens hvalid hopens
      rw [he] at h; cases h
      exact .inr ⟨root, rfl, rfl, rfl⟩

@[simp] theorem disk_released (w : NativeWatch) (world : World) :
    (w.released world).disk = world.disk := by
  unfold released
  split <;> rfl

@[simp] theorem opensHandles_released (w : NativeWatch) (world : World) :
    (w.released world).opensHandles = world.opensHandles := by
  unfold released
  split <;> rfl

/-! ### The calls of a watch by what comes of their attempts -/

theorem establish_eq (w : NativeWatch) (world : World) (r : WatchRequest) :
    establish p w world r =
      match attempt p world r with
      | (.ok root, after) => (.ok root, w.opened p r root, after)
      | (.error e, after) => (.error e, { w with stage := .idle }, after) := by
  unfold establish attempt
  cases p.validate world.disk r with
  | error e => rfl
  | ok root =>
    simp only
    rcases world.acquire root r.options.recursive with ⟨_ | e, after⟩ <;> rfl

/-- A watch that is stopped is as new, but for the request that it keeps. -/
theorem stop_eq (w : NativeWatch) (world : World) :
    w.stop world = ({ fresh with request := w.request }, w.released world) := rfl

/-- `watch` reads nothing of the watch but whether it has a handle to close. -/
theorem watch_eq (w : NativeWatch) (world : World) (r : WatchRequest) :
    watch p w world r =
      match attempt p (w.released world) r with
      | (.ok root, after) => (true, serving p r root, after)
      | (.error e, after) => (false, fresh, after.note (.refused e)) := by
  -- a stopped watch has nothing left to tear down, so the handle is asked for by a fresh one
  have hestablish : establish p { ((w.stop world).1.teardown (w.stop world).2 true).1 with
      request := none } ((w.stop world).1.teardown (w.stop world).2 true).2 r = _ :=
    establish_eq fresh (w.released world) r
  rcases hattempt : attempt p (w.released world) r with ⟨e | root, after⟩
  · rw [hattempt] at hestablish
    simp only [watch, replace, hestablish]
    rfl
  · rw [hattempt] at hestablish
    simp only [watch, replace, hestablish]
    rfl

theorem resume_of_listening {w : NativeWatch} (world : World) (h : w.listener.isSome = true) :
    resume p w world = (w, world) := by
  rw [resume, if_pos h]

theorem resume_of_unrequested {w : NativeWatch} (world : World) (h : w.request = none) :
    resume p w world = (w, world) := by
  unfold resume
  split
  · rfl
  · rw [h]

theorem resume_of_silent {w : NativeWatch} {r : WatchRequest} (world : World)
    (hsilent : w.listener = none) (hr : w.request = some r) :
    resume p w world =
      match attempt p world r with
      | (.ok root, after) => (w.opened p r root, after)
      | (.error e, after) => ({ w with stage := .idle }, after.note (.refused e)) := by
  obtain ⟨queue, stage, request, root, listener, pending⟩ := w
  obtain rfl : listener = none := hsilent
  obtain rfl : request = some r := hr
  simp only [resume, Option.isSome_none, Bool.false_eq_true, if_false, establish_eq]
  rcases attempt p world r with ⟨e | root, after⟩ <;> rfl

theorem rearmIfPending_of_settled {w : NativeWatch} (world : World)
    (h : w.rearmPending = false) : rearmIfPending p w world = (w, world) := by
  rw [rearmIfPending, h]
  rfl

theorem rearmIfPending_of_unrequested {w : NativeWatch} (world : World)
    (hpending : w.rearmPending = true) (hr : w.request = none) :
    rearmIfPending p w world = ({ w with rearmPending := false }, world) := by
  rw [rearmIfPending, hpending, hr]
  rfl

/-- While its target is not valid, a pending rearm leaves the watch as it is. -/
theorem rearmIfPending_of_invalid {w : NativeWatch} {world : World} {r : WatchRequest}
    {e : WatchError} (hpending : w.rearmPending = true) (hr : w.request = some r)
    (hvalid : p.validate world.disk r = .error e) :
    rearmIfPending p w world = (w, world.note (.refused e)) := by
  obtain ⟨queue, stage, request, root, listener, pending⟩ := w
  obtain rfl : pending = true := hpending
  obtain rfl : request = some r := hr
  simp only [rearmIfPending, rearm, hvalid]
  rfl

/-- Once its target is valid, a pending rearm closes the handle and tries to open another. -/
theorem rearmIfPending_of_valid {w : NativeWatch} {world : World} {r : WatchRequest} {root : Path}
    (hpending : w.rearmPending = true) (hr : w.request = some r)
    (hvalid : p.validate world.disk r = .ok root) :
    rearmIfPending p w world =
      match attempt p (w.released world) r with
      | (.ok root, after) =>
        ({ w.opened p r root with rearmPending := false, queue := w.queue.push ⟨.added, root⟩ },
          after)
      | (.error e, after) => (w.closed, after.note (.refused e)) := by
  obtain ⟨queue, stage, request, root', listener, pending⟩ := w
  obtain rfl : pending = true := hpending
  obtain rfl : request = some r := hr
  simp only [rearmIfPending, rearm, hvalid, establish_eq, teardown, released]
  rcases attempt p (if listener.isSome then world.note .closed else world) r with
    ⟨e | root, after⟩ <;> rfl

/-- `start` is a detection cycle, after which a watch without a handle is resumed. -/
theorem start_eq (w : NativeWatch) (world : World) :
    w.start p world = resume p (rearmIfPending p w world).1 (rearmIfPending p w world).2 := rfl

/-- `poll` is a detection cycle, after which the oldest notification is taken. -/
theorem poll_eq (w : NativeWatch) (world : World) :
    w.poll p world =
      ((rearmIfPending p w world).1.queue.poll.1,
        { (rearmIfPending p w world).1 with queue := (rearmIfPending p w world).1.queue.poll.2 },
        (rearmIfPending p w world).2) := rfl

end NativeWatch

end FileWatch

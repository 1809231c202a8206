import FileWatch.Proofs.Watcher.Trace

/-! # Transport — what the calls of a native watch take no notice of

A backend makes use of a part of each request, and it writes the journal of a world without ever
reading it. A `Transport` changes what is left of the requests, and what the journal holds already.
Every call of a native watch does the same with its data transported as it does without, and hands
the transported data on.
-/

namespace FileWatch

/-- Whether two requests ask a backend for the same: they differ at most in classes of change that
it cannot observe, and in the size of the buffer. -/
structure WatchRequest.Interchangeable (p : NativePolicy) (r r' : WatchRequest) : Prop where
  path : r.path = r'.path
  events : r.events &&& p.supported = r'.events &&& p.supported
  recursive : r.options.recursive = r'.options.recursive
  debounce : r.options.debounce = r'.options.debounce

/-- A change of requests and of journals that a native watch does not notice. -/
structure Transport (p : NativePolicy) where
  request : WatchRequest → WatchRequest
  journal : List JournalEntry → List JournalEntry
  interchangeable : ∀ r, (request r).Interchangeable p r
  journal_concat : ∀ entries e, journal (entries ++ [e]) = journal entries ++ [e]

namespace Transport

variable {p : NativePolicy} (T : Transport p)

/-- The world with its journal transported. -/
def onWorld (world : World) : World := { world with journal := T.journal world.journal }

/-- The watch with its request transported. -/
def onWatch (w : NativeWatch) : NativeWatch := { w with request := w.request.map T.request }

variable (w : NativeWatch) (world : World) (r : WatchRequest)

/-! ### Opening a handle -/

@[simp] theorem note_onWorld (e : JournalEntry) :
    (T.onWorld world).note e = T.onWorld (world.note e) := by
  simp [onWorld, World.note, T.journal_concat]

theorem acquire_onWorld (root : Path) (recursive : Bool) :
    (T.onWorld world).acquire root recursive =
      (world.acquire root recursive).map id T.onWorld := by
  obtain ⟨disk, openFault, registerFault, journal⟩ := world
  cases openFault <;> cases registerFault <;>
    simp only [World.acquire, World.note, onWorld, T.journal_concat, Prod.map, id]

theorem validate_request (d : Disk) : p.validate d (T.request r) = p.validate d r := by
  rw [NativePolicy.validate, NativePolicy.validate, (T.interchangeable r).path,
    (T.interchangeable r).recursive]

theorem attempt_transported :
    NativeWatch.attempt p (T.onWorld world) (T.request r) =
      (NativeWatch.attempt p world r).map id T.onWorld := by
  have hdisk : (T.onWorld world).disk = world.disk := rfl
  unfold NativeWatch.attempt
  rw [hdisk, T.validate_request]
  cases p.validate world.disk r with
  | error e => rfl
  | ok root =>
    simp only [T.acquire_onWorld, (T.interchangeable r).recursive]
    rcases world.acquire root r.options.recursive with ⟨_ | e, after⟩ <;> rfl

theorem released_transported :
    (T.onWatch w).released (T.onWorld world) = T.onWorld (w.released world) := by
  have hlistener : (T.onWatch w).listener = w.listener := rfl
  unfold NativeWatch.released
  rw [hlistener]
  split
  · rw [note_onWorld]
  · rfl

theorem opened_transported (root : Path) :
    (T.onWatch w).opened p (T.request r) root = T.onWatch (w.opened p r root) := by
  have hr := T.interchangeable r
  rw [NativeWatch.opened, NativeWatch.opened, NativeWatch.listenerFor, NativeWatch.listenerFor,
    hr.events, hr.recursive, hr.debounce]
  rfl

theorem serving_transported (root : Path) :
    NativeWatch.serving p (T.request r) root = T.onWatch (NativeWatch.serving p r root) :=
  T.opened_transported { NativeWatch.fresh with request := some r } r root

/-! ### The calls -/

theorem stop_transported :
    (T.onWatch w).stop (T.onWorld world) = (w.stop world).map T.onWatch T.onWorld := by
  rw [NativeWatch.stop_eq, NativeWatch.stop_eq, released_transported]
  rfl

theorem watch_transported :
    (T.onWatch w).watch p (T.onWorld world) (T.request r) =
      (w.watch p world r).map id (Prod.map T.onWatch T.onWorld) := by
  rw [NativeWatch.watch_eq, NativeWatch.watch_eq, released_transported, attempt_transported]
  rcases NativeWatch.attempt p (w.released world) r with ⟨e | root, after⟩
  · simp only [Prod.map, id, note_onWorld]
    rfl
  · simp only [Prod.map, id, serving_transported]

theorem resume_transported :
    (T.onWatch w).resume p (T.onWorld world) = (w.resume p world).map T.onWatch T.onWorld := by
  cases hl : w.listener with
  | some l =>
    have hlistening : w.listener.isSome = true := by rw [hl]; rfl
    rw [NativeWatch.resume_of_listening world hlistening,
      NativeWatch.resume_of_listening (w := T.onWatch w) _ hlistening]
    rfl
  | none =>
    cases hr : w.request with
    | none =>
      have hr' : (T.onWatch w).request = none := by rw [onWatch, hr]; rfl
      rw [NativeWatch.resume_of_unrequested world hr, NativeWatch.resume_of_unrequested _ hr']
      rfl
    | some r =>
      have hr' : (T.onWatch w).request = some (T.request r) := by rw [onWatch, hr]; rfl
      rw [NativeWatch.resume_of_silent world hl hr,
        NativeWatch.resume_of_silent (w := T.onWatch w) _ hl hr', attempt_transported]
      rcases NativeWatch.attempt p world r with ⟨e | root, after⟩
      · simp only [Prod.map, id, note_onWorld]
        rfl
      · simp only [Prod.map, id, opened_transported]

theorem rearmIfPending_transported :
    (T.onWatch w).rearmIfPending p (T.onWorld world) =
      (w.rearmIfPending p world).map T.onWatch T.onWorld := by
  cases hpending : w.rearmPending with
  | false =>
    have hpending' : (T.onWatch w).rearmPending = false := hpending
    rw [NativeWatch.rearmIfPending_of_settled world hpending,
      NativeWatch.rearmIfPending_of_settled _ hpending']
    rfl
  | true =>
    have hpending' : (T.onWatch w).rearmPending = true := hpending
    cases hr : w.request with
    | none =>
      have hr' : (T.onWatch w).request = none := by rw [onWatch, hr]; rfl
      rw [NativeWatch.rearmIfPending_of_unrequested world hpending hr,
        NativeWatch.rearmIfPending_of_unrequested _ hpending' hr']
      simp [onWatch, hr, Prod.map]
    | some r =>
      have hr' : (T.onWatch w).request = some (T.request r) := by rw [onWatch, hr]; rfl
      have hvalidate : p.validate (T.onWorld world).disk (T.request r) =
          p.validate world.disk r := T.validate_request r world.disk
      cases hvalid : p.validate world.disk r with
      | error e =>
        rw [NativeWatch.rearmIfPending_of_invalid hpending hr hvalid,
          NativeWatch.rearmIfPending_of_invalid hpending' hr' (hvalidate.trans hvalid),
          note_onWorld]
        rfl
      | ok root =>
        rw [NativeWatch.rearmIfPending_of_valid hpending hr hvalid,
          NativeWatch.rearmIfPending_of_valid hpending' hr' (hvalidate.trans hvalid),
          released_transported, attempt_transported]
        rcases NativeWatch.attempt p (w.released world) r with ⟨e | root, after⟩
        · simp only [Prod.map, id, note_onWorld]
          rfl
        · simp only [Prod.map, id, opened_transported]
          rfl

theorem start_transported :
    (T.onWatch w).start p (T.onWorld world) = (w.start p world).map T.onWatch T.onWorld := by
  rw [NativeWatch.start_eq, NativeWatch.start_eq, rearmIfPending_transported]
  exact T.resume_transported _ _

theorem poll_transported :
    (T.onWatch w).poll p (T.onWorld world) =
      (w.poll p world).map id (Prod.map T.onWatch T.onWorld) := by
  rw [NativeWatch.poll_eq, NativeWatch.poll_eq, rearmIfPending_transported]
  rfl

theorem drain_transported :
    NativeWatch.polls p ((T.onWatch w).drainPolls p (T.onWorld world)) (T.onWatch w)
        (T.onWorld world) =
      (NativeWatch.polls p (w.drainPolls p world) w world).map id
        (Prod.map T.onWatch T.onWorld) :=
  NativeWatch.drain_of_poll (fun _ _ => True) (fun w world _ => T.poll_transported w world)
    (fun _ _ _ => trivial) trivial

theorem deliver_transported (now : Nat) (e : NativeEvent) :
    (T.onWatch w).deliver p (T.onWorld world) now e =
      (w.deliver p world now e).map id (Prod.map T.onWatch T.onWorld) := by
  have hlive : (T.onWatch w).live? = w.live? := rfl
  rw [NativeWatch.deliver, NativeWatch.deliver, hlive]
  cases w.live? with
  | none => rfl
  | some l =>
    cases e.rescan with
    | false => rfl
    | true =>
      simp only [if_true, note_onWorld]
      rfl

theorem deliverError_transported (e : NativeError) :
    (T.onWatch w).deliverError p (T.onWorld world) e =
      (w.deliverError p world e).map id (Prod.map T.onWatch T.onWorld) := by
  have hlive : (T.onWatch w).live? = w.live? := rfl
  rw [NativeWatch.deliverError, NativeWatch.deliverError, hlive]
  cases w.live? with
  | none => rfl
  | some l =>
    simp only [note_onWorld]
    rfl

theorem lose_transported : (T.onWatch w).lose = w.lose.map id T.onWatch := by
  have hlive : (T.onWatch w).live? = w.live? := rfl
  rw [NativeWatch.lose, NativeWatch.lose, hlive]
  cases w.live? with
  | none => rfl
  | some l => rfl

/-! ### The steps of a watcher -/

/-- The step with the request that it asks for transported. -/
def onStep : Watcher.Step → Watcher.Step
  | .call (.watch r) => .call (.watch (T.request r))
  | s => s

theorem onStep_of_keeps {s : Watcher.Step} (hs : ∀ r, s ≠ .call (.watch r)) : T.onStep s = s := by
  unfold onStep
  split
  · exact absurd rfl (hs _)
  · rfl

/-- The watcher with the request of its watch transported. -/
def onWatcher (f : Watcher) : Watcher :=
  { f with
    backend := match f.backend with
      | .native q w => .native q (T.onWatch w)
      | b => b }

/-- A transported watch does in each step what it does without. -/
theorem act_transported (now : Nat) (s : Watcher.Step) :
    (T.onWatch w).act p (T.onWorld world) now (T.onStep s) =
      (w.act p world now s).map id (Prod.map T.onWatch T.onWorld) := by
  rcases s.watch_cases with ⟨r, rfl⟩ | hs
  · rw [onStep, NativeWatch.act, NativeWatch.act, watch_transported]
    rfl
  · rw [T.onStep_of_keeps hs]
    cases s with
    | call c =>
      cases c with
      | watch r => exact absurd rfl (hs r)
      | start => rw [NativeWatch.act, NativeWatch.act, start_transported]; rfl
      | stop => rw [NativeWatch.act, NativeWatch.act, stop_transported]; rfl
      | poll => rw [NativeWatch.act, NativeWatch.act, poll_transported]; rfl
      | drain => rw [NativeWatch.act, NativeWatch.act, drain_transported]; rfl
    | happening h =>
      cases h with
      | event e => rw [NativeWatch.act, NativeWatch.act, deliver_transported]; rfl
      | failure e => rw [NativeWatch.act, NativeWatch.act, deliverError_transported]; rfl
      | lose => rw [NativeWatch.act, NativeWatch.act, lose_transported]; rfl
      | edit | openFault | registerFault | nothing => rfl

theorem honoredAfter_transported (honored : EventMask) (s : Watcher.Step) (reply : Watcher.Reply) :
    Watcher.honoredAfter p honored (T.onStep s) reply =
      Watcher.honoredAfter p honored s reply := by
  rcases s.watch_cases with ⟨r, rfl⟩ | hs
  · cases reply with
    | established b =>
      cases b with
      | true => exact (T.interchangeable r).events
      | false => rfl
    | nothing | polled | drained | delivered => rfl
  · rw [T.onStep_of_keeps hs]

/-- **A transported run gives the same answers**, and hands the transported data on. -/
theorem run_transported (honored : EventMask) (steps : List (Nat × Watcher.Step)) :
    Watcher.run ⟨.native p (T.onWatch w), honored⟩ (T.onWorld world)
        (steps.map (Prod.map id T.onStep)) =
      (Watcher.run ⟨.native p w, honored⟩ world steps).map id
        (Prod.map T.onWatcher T.onWorld) := by
  induction steps generalizing w honored world with
  | nil => rfl
  | cons s rest ih =>
    obtain ⟨now, s⟩ := s
    rw [List.map_cons, Prod.map, Watcher.run_native_cons, Watcher.run_native_cons, id,
      act_transported]
    simp only [Prod.map, id, honoredAfter_transported, ih]
    rfl

end Transport

end FileWatch

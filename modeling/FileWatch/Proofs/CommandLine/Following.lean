import FileWatch.CommandLine.Session
import FileWatch.Proofs.Watcher.Reached

/-! # Following — what a watch command goes through, however it prints

Between two ticks, a `watch` command is a watcher or a file that it looks at, and how it prints what
it has to tell. `Watched` is the first part alone. What it has to tell at a tick and what becomes of
it do not depend on how that is printed (`tick_session`), and neither does what goes on around it
(`meetAt_session`) or its end (`finish_session`).

`Session.follow` takes a command through any `Move`s: ticks, and happenings at any time between
them. A script that `Session.play` takes is such moves, with one tick after each happening
(`play_eq_follow`).
-/

namespace FileWatch.CommandLine

/-- Something that happens to a command until it is interrupted. -/
inductive Move where
  /-- The timer ticks. -/
  | tick
  | happening (now : Nat) (h : Happening)
  deriving DecidableEq, Repr

/-- The moves of a script that is played: a tick at once, and one after each happening. -/
def movesOf (script : List Happening) : List Move :=
  .tick :: script.flatMap fun h => [.happening 0 h, .tick]

namespace Session

/-- Something goes on around the session at the time `now`. -/
def meetAt (world : World) (now : Nat) (h : Happening) : Session → Session × World
  | watching f json =>
    let (_, f, world) := f.meet world now h
    (watching f json, world)
  | s => (s, world.meet h)

/-- The session through moves, after which it is interrupted. It ends there or with a tick that
fails, and in either case a watcher is stopped. -/
def follow (world : World) (s : Session) : List Move → Course
  | [] =>
    let (s, world) := s.finish world
    ⟨[], none, s, world⟩
  | .happening now h :: rest =>
    let (s, world) := s.meetAt world now h
    s.follow world rest
  | .tick :: rest =>
    let (printed, s, world) := s.tick world
    match printed.failure with
    | some failure =>
      let (s, world) := s.finish world
      ⟨[printed.lines], some failure, s, world⟩
    | none =>
      let course := s.follow world rest
      { course with ticks := printed.lines :: course.ticks }

theorem meetAt_zero (s : Session) (world : World) (h : Happening) :
    s.meetAt world 0 h = s.meet world h := by
  rcases s with ⟨f, json⟩ | ⟨t, existed, json⟩ | p <;> rfl

/-- A tick that does not fail is followed by the rest. -/
theorem follow_of_tick {s s' : Session} {world world' : World} {lines : List String}
    (h : s.tick world = (⟨lines, none⟩, s', world')) (rest : List Move) :
    s.follow world (.tick :: rest) =
      { s'.follow world' rest with ticks := lines :: (s'.follow world' rest).ticks } := by
  rw [follow, h]

/-- A tick that fails is the last one. -/
theorem follow_of_failure {s s' : Session} {world world' : World} {lines : List String}
    {failure : Failure} (h : s.tick world = (⟨lines, some failure⟩, s', world'))
    (rest : List Move) :
    s.follow world (.tick :: rest) =
      ⟨[lines], some failure, (s'.finish world').1, (s'.finish world').2⟩ := by
  rw [follow, h]

/-- A script that is played is followed move by move. -/
theorem play_eq_follow (s : Session) (world : World) (script : List Happening) :
    s.play world script = s.follow world (movesOf script) := by
  induction script generalizing s world with
  | nil =>
    rw [movesOf, List.flatMap_nil, play]
    rcases htick : s.tick world with ⟨⟨lines, _ | failure⟩, s', world'⟩
    · rw [follow_of_tick htick]
      rfl
    · rw [follow_of_failure htick]
  | cons h hs ih =>
    rw [movesOf, List.flatMap_cons, play]
    rcases htick : s.tick world with ⟨⟨lines, _ | failure⟩, s', world'⟩
    · simp only [follow_of_tick htick, ih, ← meetAt_zero]
      rfl
    · rw [follow_of_failure htick]

end Session

/-- What a `watch` command goes on with between two ticks. -/
inductive Watched where
  /-- A watcher that is drained at every tick. -/
  | watcher (f : Watcher)
  /-- A file that is looked at on every tick, and whether it existed when last reported. -/
  | file (t : Detector) (existed : Bool)

namespace Watched

/-- The command that prints so. -/
def session (json : Bool) : Watched → Session
  | watcher f => .watching f json
  | file t existed => .looking t existed json

/-- What there is to tell at a tick. -/
def news (world : World) : Watched → List Notification × Watched × World
  | watcher f =>
    let (ns, f, world) := f.drain world
    (ns, watcher f, world)
  | file t existed =>
    let (changed, t) := t.check world.disk
    if changed then
      ([⟨kindOfChange existed t.signature.exists?, t.path⟩], file t t.signature.exists?, world)
    else ([], file t existed, world)

/-- Something goes on at the time `now`. -/
def meet (world : World) (now : Nat) (h : Happening) : Watched → Watched × World
  | watcher f =>
    let (_, f, world) := f.meet world now h
    (watcher f, world)
  | file t existed => (file t existed, world.meet h)

/-- The end: a watcher is stopped. -/
def stop (world : World) : Watched → Watched × World
  | watcher f =>
    let (f, world) := f.stop world
    (watcher f, world)
  | file t existed => (file t existed, world)

/-- What there is to tell at the ticks among some moves. -/
def told (world : World) (v : Watched) : List Move → List (List Notification)
  | [] => []
  | .tick :: rest => (v.news world).1 :: (v.news world).2.1.told (v.news world).2.2 rest
  | .happening now h :: rest => (v.meet world now h).1.told (v.meet world now h).2 rest

/-- What moves lead to. -/
def after (world : World) (v : Watched) : List Move → Watched × World
  | [] => (v, world)
  | .tick :: rest => (v.news world).2.1.after (v.news world).2.2 rest
  | .happening now h :: rest => (v.meet world now h).1.after (v.meet world now h).2 rest

/-- What moves lead to, once it is stopped. -/
def stoppedAfter (world : World) (v : Watched) (moves : List Move) : Watched × World :=
  (v.after world moves).1.stop (v.after world moves).2

variable (v : Watched) (world : World) (json : Bool)

/-! ### How a command prints makes no difference to what it goes through -/

theorem tick_session : (v.session json).tick world =
    (⟨(linesOf json (v.news world).1).1, (linesOf json (v.news world).1).2⟩,
      (v.news world).2.1.session json, (v.news world).2.2) := by
  rcases v with f | ⟨t, existed⟩
  · rfl
  · rw [session, Session.tick, news]
    rcases t.check world.disk with ⟨_ | _, t'⟩ <;> rfl

theorem meetAt_session (now : Nat) (h : Happening) :
    (v.session json).meetAt world now h =
      ((v.meet world now h).1.session json, (v.meet world now h).2) := by
  rcases v with f | ⟨t, existed⟩ <;> rfl

theorem finish_session : (v.session json).finish world =
    ((v.stop world).1.session json, (v.stop world).2) := by
  rcases v with f | ⟨t, existed⟩ <;> rfl

/-! ### What is left at the end -/

/-- Whether a watcher is idle, listens to nothing and has nothing left to tell. -/
def IsOver : Watched → Prop
  | watcher f => f.backend.stage = .idle ∧ f.listener? = none ∧ f.backend.pending = 0
      ∧ f.backend.rearmPending = false
  | file _ _ => True

theorem isOver_stop : (v.stop world).1.IsOver := by
  rcases v with ⟨⟨p, w⟩ | _ | b, honored⟩ | ⟨t, existed⟩
  · exact ⟨rfl, rfl, rfl, rfl⟩
  · exact ⟨rfl, rfl, rfl, rfl⟩
  · exact ⟨rfl, rfl, rfl, rfl⟩
  · trivial

/-- What is watched holds the native handle that is held, if one is. -/
inductive Holds : Watched → World → Prop where
  | watcher {p : NativePolicy} {w : NativeWatch} {world : World} (honored : EventMask)
    (lawful : NativeWatch.Lawful p w world) : Holds (watcher ⟨.native p w, honored⟩) world
  | file {t : Detector} {existed : Bool} {world : World} (held : world.holding? = some false) :
    Holds (file t existed) world

variable {v world}

/-- A step of the watcher that is watched keeps hold of the handle. -/
theorem holds_step {p : NativePolicy} {w : NativeWatch} {honored : EventMask}
    (hlawful : NativeWatch.Lawful p w world) (now : Nat) (s : Watcher.Step) :
    let after := (Watcher.step ⟨.native p w, honored⟩ world now s).2
    (watcher after.1).Holds after.2 := by
  rw [Watcher.step_native]
  exact .watcher _ (hlawful.act now s)

theorem Holds.news (h : v.Holds world) : (v.news world).2.1.Holds (v.news world).2.2 := by
  rcases h with ⟨honored, hlawful⟩ | @⟨t, existed, _, hheld⟩
  · exact holds_step hlawful 0 (.call .drain)
  · rw [Watched.news]
    rcases t.check world.disk with ⟨_ | _, t'⟩ <;> exact .file hheld

theorem Holds.meet (h : v.Holds world) (now : Nat) (happening : Happening) :
    (v.meet world now happening).1.Holds (v.meet world now happening).2 := by
  rcases h with ⟨honored, hlawful⟩ | hheld
  · exact holds_step hlawful now (.happening happening)
  · exact .file ((World.holding?_meet world happening).trans hheld)

theorem Holds.after (h : v.Holds world) (moves : List Move) :
    (v.after world moves).1.Holds (v.after world moves).2 := by
  induction moves generalizing v world with
  | nil => exact h
  | cons m rest ih =>
    rcases m with _ | ⟨now, happening⟩
    · exact ih h.news
    · exact ih (h.meet now happening)

/-- No native handle is held once what is watched is stopped. -/
theorem Holds.stop (h : v.Holds world) : (v.stop world).2.holding? = some false := by
  rcases h with ⟨honored, hlawful⟩ | hheld
  · exact hlawful.stop.held
  · exact hheld

end Watched

end FileWatch.CommandLine

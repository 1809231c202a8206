import FileWatch.Proofs.CommandLine.Polling
import FileWatch.Proofs.Config.Accepted
import FileWatch.Proofs.Poller.Forwarding

/-! # Timing — the time between ticks

A command that goes on comes to a timer on one of three paths (`Arms`): its watch is established, or
a file that cannot be watched is looked at instead, or it polls. On every path the time between
ticks is the number of the command line or else that of the settings (`Arms.period_eq`). The number
of the settings is checked and that of the command line is not, so a timer lacks its period exactly
if the command line says zero.
-/

namespace FileWatch.CommandLine

/-- The time between ticks that a command line gives, in milliseconds. -/
def Command.interval? : Command → Option UInt64
  | .watch a => a.intervalMs
  | .poll a => a.intervalMs
  | .config _ => none

/-- What is handed to a timer. -/
structure Timer where
  period : Duration
  /-- The exit status without a period. -/
  status : Nat
  /-- What acts at every tick, and the world it acts in. -/
  session : Session
  world : World
  /-- What is said first. -/
  said : String

/-- How a command goes on with a timer. -/
def Timer.start (t : Timer) : Start := .timed t.period t.status t.session t.world t.said

/-- A command comes to a timer. -/
inductive Arms (world : World) (c : Config) : Command → Timer → Prop
  /-- The watch is established. -/
  | established {a : WatchArguments} {events : EventMask} {f : Watcher} {begun : World}
    (hevents : resolveEvents a.events c.events = .ok events)
    (hwatch : (if c.backend.isSome then c.watcher else Services.native.watcher).watch world
      ⟨a.path, events, watchOptions c a⟩ = (true, f, begun)) :
    Arms world c (.watch a)
      ⟨period c a.intervalMs, crashStatus, .watching f a.json, begun,
        if a.json then "" else watchingLine a.path f.backend.kind⟩
  /-- A single file cannot be watched. -/
  | refused {a : WatchArguments} {events : EventMask} {f : Watcher} {begun : World}
    (hevents : resolveEvents a.events c.events = .ok events)
    (hwatch : (if c.backend.isSome then c.watcher else Services.native.watcher).watch world
      ⟨a.path, events, watchOptions c a⟩ = (false, f, begun))
    (hfile : (!(watchOptions c a).recursive && begun.disk.isFileAt a.path) = true) :
    Arms world c (.watch a)
      ⟨period c a.intervalMs, crashStatus,
        (Watched.polled a.path events begun.disk).session a.json, begun, ""⟩
  /-- Files are polled. -/
  | polls {a : PollArguments} {events : EventMask}
    (hevents : resolveEvents a.events c.events = .ok events) :
    Arms world c (.poll a)
      ⟨period c a.intervalMs, failureStatus,
        .polling (Poller.empty.after (tracking world.disk a.paths events)), world, ""⟩

variable {world : World} {args : List Argument} {i : Invocation} {c : Config} {command : Command}
  {t : Timer}

/-! ### The period -/

/-- On every path the period is the number of the command line, or else that of the settings. -/
theorem Arms.period_eq (h : Arms world c command t) : t.period = period c command.interval? := by
  cases h with
  | established => rfl
  | refused => rfl
  | polls => rfl

theorem period_eq_zero_iff (hc : c.fault? = none) (ms : Option UInt64) :
    period c ms = Duration.zero ↔ ms = some 0 := by
  have hzero (n : UInt64) : Duration.ofMilliseconds n.toNat = Duration.zero ↔ n = 0 := by
    rw [Duration.ofMilliseconds, Duration.zero, Duration.mk.injEq, ← UInt64.toNat_inj]
    simp
  cases ms with
  | none =>
    obtain ⟨-, -, hpoll, -⟩ := Config.ranges_of_faultless hc
    refine iff_of_false (fun hnone => ?_) nofun
    have hms : c.pollIntervalMs = 0 := (hzero _).mp hnone
    rw [hms] at hpoll
    exact absurd hpoll (by decide)
  | some n =>
    rw [Option.some.injEq]
    exact hzero n

/-! ### How a command starts -/

theorem Arms.startWatch_eq {a : WatchArguments} (h : Arms world c (.watch a) t) :
    startWatch world c a = t.start := by
  cases h with
  | established hevents hwatch =>
    simp only [startWatch, hevents, hwatch]
    rfl
  | refused hevents hwatch hfile =>
    simp only [startWatch, hevents, hwatch, if_pos hfile]
    rfl

theorem Arms.startPoll_eq {a : PollArguments} (h : Arms world c (.poll a) t) :
    startPoll world c a = t.start := by
  cases h with
  | polls hevents => exact startPoll_of_events hevents

/-- Without a timer `watch` fails. -/
theorem startWatch_of_not_arms {a : WatchArguments} (h : ∀ t, ¬ Arms world c (.watch a) t) :
    ∃ f, startWatch world c a = .ended (.ofFailure f "" "") := by
  simp only [startWatch]
  rcases hevents : resolveEvents a.events c.events with f | events
  · exact ⟨f, rfl⟩
  rcases hwatch : (if c.backend.isSome then c.watcher else Services.native.watcher).watch world
    ⟨a.path, events, watchOptions c a⟩ with ⟨established, f, begun⟩
  cases established with
  | true => exact absurd (.established hevents hwatch) (h _)
  | false =>
    have hfile : ¬ (!(watchOptions c a).recursive && begun.disk.isFileAt a.path) = true :=
      fun hfile => h _ (.refused hevents hwatch hfile)
    exact ⟨.cannotWatch a.path, by simp only [hwatch, if_neg hfile]; rfl⟩

theorem startPoll_of_not_arms {a : PollArguments} (h : ∀ t, ¬ Arms world c (.poll a) t) :
    ∃ f, startPoll world c a = .ended (.ofFailure f "" "") := by
  simp only [startPoll]
  rcases hevents : resolveEvents a.events c.events with f | events
  · exact ⟨f, rfl⟩
  · exact absurd (.polls hevents) (h _)

/-- What `config` leaves behind has a wording. -/
theorem isSome_diagnostics_runConfig (d : Disk) (p : Path) (view : ConfigView) :
    (runConfig d p view).diagnostics.isSome = true := by
  cases view with
  | sample => rfl
  | location => rfl
  | settings =>
    simp only [runConfig]
    split
    · rfl
    · split <;> rfl

/-- A timer with a period ticks, and without one the command breaks off. -/
theorem Timer.start_eq (t : Timer) :
    t.start = if t.period = .zero then .ended ⟨t.status, "", none⟩
      else .session t.session t.world t.period t.said := by
  simp only [Timer.start, Start.timed, beq_iff_eq]

variable {home : Path}

/-- A command line that comes to a timer goes on with it. -/
theorem Arms.start_eq (h : Arms world c i.command t) (hread : read args = .done i)
    (hload : loadConfig world.disk (i.settingsFile home) = .ok c) :
    start home world args = t.start := by
  obtain ⟨config, command⟩ := i
  cases command with
  | watch a => simp only [start, hread, hload, Arms.startWatch_eq h]
  | poll a => simp only [start, hread, hload, Arms.startPoll_eq h]
  | config view => cases h

/-- A command line that comes to no timer is over. -/
theorem start_of_not_arms (h : ∀ t, ¬ Arms world c i.command t) (hread : read args = .done i)
    (hload : loadConfig world.disk (i.settingsFile home) = .ok c) :
    ∃ r, start home world args = .ended r ∧ r.diagnostics.isSome = true := by
  obtain ⟨config, command⟩ := i
  cases command with
  | watch a =>
    obtain ⟨f, hf⟩ := startWatch_of_not_arms h
    exact ⟨.ofFailure f "" "", by simp only [start, hread, hload, hf], rfl⟩
  | poll a =>
    obtain ⟨f, hf⟩ := startPoll_of_not_arms h
    exact ⟨.ofFailure f "" "", by simp only [start, hread, hload, hf], rfl⟩
  | config view =>
    have hstart : start home world args = .ended (runConfig world.disk
        (Invocation.settingsFile home ⟨config, .config view⟩) view) := by
      simp only [start, hread]
    exact ⟨_, hstart, isSome_diagnostics_runConfig ..⟩

/-- **A timer lacks its period exactly if the command line gives zero.** Beside settings that pass
their check, the period of every timer that a command line comes to, for a watch, for a file or for
a poller, is zero exactly if the command line says so. The settings that it uses pass their check.
So a command line that gives no zero goes on with its timer, and one that does breaks off there. A
command line that comes to no timer is over with a wording of its own. -/
theorem timer_without_period_iff (home : Path) (world : World) (hread : read args = .done i) :
    (∀ c t, c.fault? = none → Arms world c i.command t →
      (t.period = .zero ↔ i.command.interval? = some 0))
      ∧ ∀ c, loadConfig world.disk (i.settingsFile home) = .ok c →
        c.fault? = none
        ∧ (∀ t, Arms world c i.command t → start home world args =
            if i.command.interval? = some 0 then .ended ⟨t.status, "", none⟩
            else .session t.session t.world t.period t.said)
        ∧ ((∀ t, ¬ Arms world c i.command t) →
            ∃ r, start home world args = .ended r ∧ r.diagnostics.isSome = true) := by
  have hperiod (c t) (hc : c.fault? = none) (ht : Arms world c i.command t) :
      t.period = .zero ↔ i.command.interval? = some 0 := by
    rw [ht.period_eq]
    exact period_eq_zero_iff hc i.command.interval?
  refine ⟨hperiod, fun c hload => ?_⟩
  have hc := Config.faultless_of_load (Config.load_of_loadConfig hload)
  refine ⟨hc, fun t ht => ?_, fun hnone => start_of_not_arms hnone hread hload⟩
  rw [ht.start_eq hread hload, t.start_eq]
  exact if_congr (hperiod c t hc ht) rfl rfl

/-- A watch of a directory with one millisecond between ticks goes on, and a poll of a file with
none breaks off. -/
theorem timer_without_period_iff_of_numbers :
    let home : Path := ⟨[Path.slash]⟩
    let world : World := { disk := { entries := [([[0x66]], .file [] ⟨0, 0⟩)] } }
    (∃ s begun said, start home world (argumentsOf ["watch", "/", "--interval-ms", "1"]) =
        .session s begun ⟨1000000⟩ said)
      ∧ start home world (argumentsOf ["poll", "/f", "--interval-ms", "+0"]) =
        .ended ⟨failureStatus, "", none⟩ := by
  intro home world
  have hwatch : read (argumentsOf ["watch", "/", "--interval-ms", "1"]) =
      .done ⟨none, .watch { path := home, intervalMs := some 1 }⟩ := rfl
  have hpoll : read (argumentsOf ["poll", "/f", "--interval-ms", "+0"]) =
      .done ⟨none, .poll { paths := [⟨[0x2F, 0x66]⟩], intervalMs := some 0 }⟩ := rfl
  have hload : loadConfig world.disk (home.join settingsPath) = .ok {} := by decide +kernel
  constructor
  · obtain ⟨-, hgoes, -⟩ := (timer_without_period_iff home world hwatch).2 {} hload
    have harms : ∃ t, Arms world {} (.watch { path := home, intervalMs := some 1 }) t
        ∧ t.period = ⟨1000000⟩ := ⟨_, .established rfl rfl, rfl⟩
    obtain ⟨t, ht, hperiod⟩ := harms
    refine ⟨t.session, t.world, t.said, ?_⟩
    rw [← hperiod, hgoes t ht]
    rfl
  · obtain ⟨-, hgoes, -⟩ := (timer_without_period_iff home world hpoll).2 {} hload
    exact hgoes _ (.polls rfl)

/-- The timer of a watch, of a file that cannot be watched and of a poller can lack its period, and
then the command breaks off. -/
theorem timer_without_period :
    let home : Path := ⟨[Path.slash]⟩
    let world : World := { disk := { entries := [([[0x66]], .file [] ⟨0, 0⟩)] } }
    let blocked : World := { world with openFault := some ⟨.tooManyWatches, []⟩ }
    let outcome (world : World) (words : List String) : Nat × String :=
      let result := run home world [] (argumentsOf words)
      (result.status, result.output)
    (¬ ∀ home world args i c t, read args = .done i →
        loadConfig world.disk (i.settingsFile home) = .ok c → Arms world c i.command t →
        t.period ≠ .zero)
      ∧ outcome world ["watch", "/", "--interval-ms", "0"] = (crashStatus, "")
      ∧ outcome blocked ["watch", "/f", "--interval-ms", "0"] = (crashStatus, "")
      ∧ outcome world ["poll", "/f", "--interval-ms", "0"] = (failureStatus, "") := by
  intro home world blocked outcome
  have hread : read (argumentsOf ["watch", "/", "--interval-ms", "0"]) =
      .done ⟨none, .watch { path := home, intervalMs := some 0 }⟩ := rfl
  have hload : loadConfig world.disk (home.join settingsPath) = .ok {} := by decide +kernel
  refine ⟨fun hall => ?_, by decide +kernel, by decide +kernel, by decide +kernel⟩
  exact hall home world _ _ {} _ hread hload (.established rfl rfl) rfl

end FileWatch.CommandLine

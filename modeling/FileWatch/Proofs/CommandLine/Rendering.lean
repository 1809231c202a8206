import FileWatch.CommandLine.Run
import FileWatch.Proofs.CommandLine.Following
import FileWatch.Proofs.Notification.Lines

/-! # Rendering — lines for people and lines of JSON tell the same

Two command lines of `watch` that differ in `--json` alone start alike: both are over at once, or
both go on with the same of what is `Watched` (`startWatch_cases`). From then on, what either prints
is a function of what there is to tell, tick by tick (`ticksOf`, `follow_session`). So the objects
that one prints spell, at each tick, the notifications whose lines the other one prints, up to the
first whose path is no text. The command that prints JSON fails there, with its watcher stopped.
-/

namespace FileWatch.CommandLine

/-- The lines of ticks, up to the first notification that has none, and why it has none. -/
def ticksOf (json : Bool) : List (List Notification) → List (List String) × Option Failure
  | [] => ([], none)
  | ns :: rest =>
    match linesOf json ns with
    | (lines, some failure) => ([lines], some failure)
    | (lines, none) =>
      let (ticks, failure) := ticksOf json rest
      (lines :: ticks, failure)

/-- What there is to tell at ticks, up to the first notification whose path is no text. -/
def untilOdd : List (List Notification) → List (List Notification)
  | [] => []
  | ns :: rest =>
    if ns.all Notification.hasText then ns :: untilOdd rest
    else [ns.takeWhile Notification.hasText]

/-! ### What a rendering makes of a tick -/

theorem linesOf_plain (ns : List Notification) :
    linesOf false ns = (ns.map (plainLine · false), none) := by
  induction ns with
  | nil => rfl
  | cons n ns ih =>
    rw [linesOf, ih]
    rfl

/-- The lines of JSON of a tick spell its notifications up to the first whose path is no text. -/
theorem parse_linesOf (ns : List Notification) :
    (linesOf true ns).1.map (fun line => Notification.parse? line.toList) =
      (ns.takeWhile Notification.hasText).map some := by
  induction ns with
  | nil => rfl
  | cons n ns ih =>
    by_cases h : n.hasText = true
    · obtain ⟨line, hline⟩ := exists_jsonLine_iff.mpr h
      have hparse := Notification.parse?_of_toJson? (jsonLine_eq_ok_iff.mp hline)
      have hlines : (linesOf true (n :: ns)).1 = line :: (linesOf true ns).1 := by
        rw [linesOf, lineOf, if_pos rfl, hline]
      rw [hlines, List.map_cons, hparse, ih, List.takeWhile_cons_of_pos h, List.map_cons]
    · have hline : jsonLine n = .error .notText :=
        jsonLine_eq_error_iff.mpr ⟨rfl, Bool.eq_false_iff.mpr h⟩
      rw [linesOf, lineOf, if_pos rfl, hline, List.takeWhile_cons_of_neg h]
      rfl

theorem linesOf_append (json : Bool) (ns ms : List Notification) :
    linesOf json (ns ++ ms) =
      match linesOf json ns with
      | (lines, some failure) => (lines, some failure)
      | (lines, none) => (lines ++ (linesOf json ms).1, (linesOf json ms).2) := by
  induction ns with
  | nil => rfl
  | cons n ns ih =>
    rw [List.cons_append, linesOf, linesOf, ih]
    rcases lineOf json n with failure | line
    · rfl
    · rcases linesOf json ns with ⟨lines, _ | failure⟩ <;> rfl

/-! ### What a rendering makes of ticks -/

theorem ticksOf_plain (told : List (List Notification)) :
    ticksOf false told = (told.map fun ns => ns.map (plainLine · false), none) := by
  induction told with
  | nil => rfl
  | cons ns rest ih => rw [ticksOf, linesOf_plain, ih, List.map_cons]

theorem parse_ticksOf (told : List (List Notification)) :
    (ticksOf true told).1.map (fun lines => lines.map fun line => Notification.parse? line.toList) =
      (untilOdd told).map fun ns => ns.map some := by
  induction told with
  | nil => rfl
  | cons ns rest ih =>
    have hparse := parse_linesOf ns
    have hfailure := linesOf_failure ns
    rcases hlines : linesOf true ns with ⟨lines, failure⟩
    rw [hlines] at hparse hfailure
    by_cases htext : ns.all Notification.hasText = true
    · rw [if_pos htext] at hfailure
      obtain rfl : failure = none := hfailure
      have hall : ns.takeWhile Notification.hasText = ns :=
        List.takeWhile_eq_self_iff.mpr (List.all_eq_true.mp htext)
      rw [ticksOf, hlines, untilOdd, if_pos htext, List.map_cons, List.map_cons, ih, hparse, hall]
    · rw [if_neg htext] at hfailure
      obtain rfl : failure = some .notText := hfailure
      rw [ticksOf, hlines, untilOdd, if_neg htext, List.map_singleton, List.map_singleton, hparse]

/-- One tick after the other prints what one tick would with all there is to tell. -/
theorem flatten_ticksOf (json : Bool) (told : List (List Notification)) :
    ((ticksOf json told).1.flatten, (ticksOf json told).2) = linesOf json told.flatten := by
  induction told with
  | nil => rfl
  | cons ns rest ih =>
    rw [List.flatten_cons, linesOf_append, ticksOf, ← ih]
    rcases linesOf json ns with ⟨lines, _ | failure⟩
    · rfl
    · simp

theorem untilOdd_of_text {told : List (List Notification)}
    (h : told.flatten.all Notification.hasText = true) : untilOdd told = told := by
  induction told with
  | nil => rfl
  | cons ns rest ih =>
    rw [List.flatten_cons, List.all_append, Bool.and_eq_true] at h
    rw [untilOdd, if_pos h.1, ih h.2]

/-! ### What a command prints -/

/-- What a command prints at its ticks is a function of what there is to tell. It ends with the
moves or with a tick that fails, and then it is stopped. -/
theorem follow_session (json : Bool) (v : Watched) (world : World) (moves : List Move) :
    let course := (v.session json).follow world moves
    (course.ticks, course.failure) = ticksOf json (v.told world moves)
      ∧ ∃ taken, taken <+: moves ∧ (course.failure = none → taken = moves)
        ∧ (v.told world taken).length = course.ticks.length
        ∧ course.session = (v.stoppedAfter world taken).1.session json
        ∧ course.world = (v.stoppedAfter world taken).2 := by
  induction moves generalizing v world with
  | nil =>
    rw [Session.follow, v.finish_session]
    exact ⟨rfl, [], List.prefix_rfl, fun _ => rfl, rfl, rfl, rfl⟩
  | cons m rest ih =>
    rcases m with _ | ⟨now, h⟩
    · have htick := v.tick_session world json
      rcases hlines : linesOf json (v.news world).1 with ⟨lines, _ | failure⟩
      · rw [hlines] at htick
        obtain ⟨hticks, taken, hprefix, htaken, hlength, hsession, hworld⟩ :=
          ih (v.news world).2.1 (v.news world).2.2
        intro course
        have hcourse : course = _ := Session.follow_of_tick htick rest
        rw [hcourse]
        refine ⟨?_, .tick :: taken, ?_, ?_, ?_, hsession, hworld⟩
        · rw [Watched.told, ticksOf, hlines, ← hticks]
        · exact (List.prefix_cons_inj _).mpr hprefix
        · intro hnone
          rw [htaken hnone]
        · rw [Watched.told, List.length_cons, hlength]
          rfl
      · rw [hlines] at htick
        intro course
        have hcourse : course = _ := Session.follow_of_failure htick rest
        rw [hcourse, Watched.finish_session]
        refine ⟨?_, [.tick], ⟨rest, rfl⟩, ?_, rfl, rfl, rfl⟩
        · rw [Watched.told, ticksOf, hlines]
        · intro hnone
          cases hnone
    · obtain ⟨hticks, taken, hprefix, htaken, hrest⟩ :=
        ih (v.meet world now h).1 (v.meet world now h).2
      rw [Session.follow, Watched.meetAt_session]
      refine ⟨hticks, .happening now h :: taken, (List.prefix_cons_inj _).mpr hprefix, ?_, hrest⟩
      intro hnone
      rw [htaken hnone]

/-- A command that goes through a script leaves behind the lines of all there is to tell, up to the
first notification that has none. -/
theorem finish_eq_linesOf (json : Bool) (v : Watched) (begun : World) (period : Duration)
    (said : String) (script : List Happening) :
    (Start.session (v.session json) begun period said).finish script =
      match linesOf json (v.told begun (movesOf script)).flatten with
      | (lines, some failure) => .ofFailure failure (outputOf lines) said
      | (lines, none) => ⟨0, outputOf lines, some said⟩ := by
  obtain ⟨hprinted, -⟩ := follow_session json v begun (movesOf script)
  rw [Start.finish, Session.play_eq_follow, ← flatten_ticksOf, ← hprinted]
  rcases ((v.session json).follow begun (movesOf script)).failure with _ | failure <;> rfl

/-! ### How a command starts -/

/-- A watcher that the program makes is on native handles, or on the stub. -/
theorem watcher_cases (c : Config) :
    (if c.backend.isSome then c.watcher else Services.native.watcher) =
        .ofBackend (.ofPolicy .unix)
      ∨ (if c.backend.isSome then c.watcher else Services.native.watcher) = .ofBackend .stub := by
  rcases hbackend : c.backend with _ | kind
  · exact .inl rfl
  · rcases kind with _ | _ | _
    all_goals simp [Config.watcher, hbackend, Backend.ofKind]

/-- What `watch` goes on with, if it does, holds the native handle that is held, if one is. -/
theorem holds_watch {f f' : Watcher} {world begun : World} {r : WatchRequest} {established : Bool}
    (hf : f = .ofBackend (.ofPolicy .unix) ∨ f = .ofBackend .stub)
    (h : f.watch world r = (established, f', begun)) (hheld : world.holding? = some false) :
    if established then (Watched.watcher f').Holds begun else begun.holding? = some false := by
  rcases hf with rfl | rfl
  · have hnative := Watcher.watch_native .unix NativeWatch.fresh .empty world r
    have hlawful := (NativeWatch.lawful_fresh (p := .unix) hheld).watch r
    obtain ⟨rfl, rfl, rfl⟩ : _ ∧ _ ∧ _ := by simpa only [Prod.mk.injEq] using hnative.symm.trans h
    rw [NativeWatch.watch_eq] at hlawful ⊢
    generalize NativeWatch.attempt .unix (NativeWatch.fresh.released world) r = outcome
      at hlawful ⊢
    rcases outcome with ⟨e | root, after⟩
    · exact hlawful.held
    · exact .watcher _ hlawful
  · have hstub : (false, Watcher.ofBackend .stub, world) = (established, f', begun) := h
    obtain ⟨rfl, rfl, rfl⟩ : _ ∧ _ ∧ _ := by simpa only [Prod.mk.injEq] using hstub
    exact hheld

/-- Without a period both are over, and with one both go on. -/
theorem timed_cases (period : Duration) (status : Nat) (v : Watched) (begun : World)
    (said : String) :
    (∃ r, ∀ json, Start.timed period status (v.session json) begun (if json then "" else said) =
        .ended r)
      ∨ ∀ json, Start.timed period status (v.session json) begun (if json then "" else said) =
        .session (v.session json) begun period (if json then "" else said) := by
  unfold Start.timed
  by_cases hperiod : (period == Duration.zero) = true
  · left
    exact ⟨_, fun json => if_pos hperiod⟩
  · right
    intro json
    rw [if_neg hperiod]

/-- Command lines of `watch` that differ in how they print start alike: both are over at once, or
both go on with the same of what is watched. -/
theorem startWatch_cases (world : World) (c : Config) (a : WatchArguments) :
    (∃ r, ∀ json, startWatch world c { a with json } = .ended r)
      ∨ ∃ (v : Watched) (begun : World) (period : Duration) (said : String),
        (∀ json, startWatch world c { a with json } =
          .session (v.session json) begun period (if json then "" else said))
        ∧ (world.holding? = some false → v.Holds begun) := by
  have hoptions (json : Bool) : watchOptions c { a with json } = watchOptions c a := rfl
  simp only [startWatch, hoptions]
  rcases resolveEvents a.events c.events with f | events
  · exact .inl ⟨_, fun json => rfl⟩
  rcases hwatch : (if c.backend.isSome then c.watcher else Services.native.watcher).watch world
    ⟨a.path, events, watchOptions c a⟩ with ⟨established, f, begun⟩
  have hholds := holds_watch (watcher_cases c) hwatch
  simp only [hwatch]
  by_cases hestablished : established = true
  · simp only [if_pos hestablished] at hholds ⊢
    rcases timed_cases (period c a.intervalMs) crashStatus (.watcher f) begun
      (watchingLine a.path f.backend.kind) with hover | hgoes
    · exact .inl hover
    · exact .inr ⟨.watcher f, begun, _, _, hgoes, hholds⟩
  · simp only [if_neg hestablished] at hholds ⊢
    by_cases hfile : (!(watchOptions c a).recursive && begun.disk.isFileAt a.path) = true
    · simp only [if_pos hfile]
      let detector := ((Detector.ofMask a.path events).check begun.disk).2
      let v : Watched := .file detector detector.signature.exists?
      have htimed := timed_cases (period c a.intervalMs) crashStatus v begun ""
      simp only [ite_self] at htimed
      rcases htimed with hover | hgoes
      · exact .inl hover
      · refine .inr ⟨v, begun, period c a.intervalMs, "", fun json => ?_,
          fun hheld => .file (hholds hheld)⟩
        rw [ite_self]
        exact hgoes json
    · simp only [if_neg hfile]
      exact .inl ⟨_, fun json => rfl⟩

/-- Command lines that read as the same command `watch`, but for how it prints, start alike. -/
theorem start_cases {home : Path} {world : World} {args args' : List Argument}
    {config : Option Path} {a : WatchArguments}
    (hplain : read args = .done ⟨config, .watch { a with json := false }⟩)
    (hjson : read args' = .done ⟨config, .watch { a with json := true }⟩) :
    (∃ r, start home world args = .ended r ∧ start home world args' = .ended r)
      ∨ ∃ (v : Watched) (begun : World) (period : Duration) (said : String),
        start home world args = .session (v.session false) begun period said
        ∧ start home world args' = .session (v.session true) begun period ""
        ∧ (world.holding? = some false → v.Holds begun) := by
  have hfile (json : Bool) : (⟨config, .watch { a with json }⟩ : Invocation).settingsFile home =
      config.getD (home.join settingsPath) := rfl
  simp only [start, hplain, hjson, hfile]
  rcases loadConfig world.disk (config.getD (home.join settingsPath)) with f | c
  · exact .inl ⟨_, rfl, rfl⟩
  · rcases startWatch_cases world c a with ⟨r, hover⟩ | ⟨v, begun, period, said, hgoes, hholds⟩
    · exact .inl ⟨r, hover false, hover true⟩
    · exact .inr ⟨v, begun, period, said, hgoes false, hgoes true, hholds⟩

/-- **`--json` changes the rendering and nothing else.** Of two command lines that read as the same
command `watch`, one without `--json` and one with it, both are over at once and alike, or both go
on with the same of what is watched. Through any moves, the first one prints at each tick a line for
each notification that there is to tell. The second one prints at the same ticks objects that spell
the same notifications in the same order, all of them if their paths are texts, and otherwise those
before the first whose path is none; there it fails. It is over with the moves, where it leaves what
the first one does, or with the tick at which it fails. By then its watcher is stopped and no native
handle is held.

A script that is played is such moves, so the outputs and the exit statuses tell the same. -/
theorem json_changes_rendering {home : Path} {world : World} {args args' : List Argument}
    {config : Option Path} {a : WatchArguments}
    (hplain : read args = .done ⟨config, .watch { a with json := false }⟩)
    (hjson : read args' = .done ⟨config, .watch { a with json := true }⟩) :
    (∃ r, start home world args = .ended r ∧ start home world args' = .ended r)
      ∨ ∃ (v : Watched) (begun : World) (period : Duration) (said : String),
        start home world args = .session (v.session false) begun period said
        ∧ start home world args' = .session (v.session true) begun period ""
        ∧ (∀ moves,
          let told := v.told begun moves
          let plain := (v.session false).follow begun moves
          let json := (v.session true).follow begun moves
          (plain.ticks = told.map (fun ns => ns.map (plainLine · false)) ∧ plain.failure = none
            ∧ plain.session = (v.stoppedAfter begun moves).1.session false
            ∧ plain.world = (v.stoppedAfter begun moves).2)
          ∧ json.ticks.map (fun lines => lines.map fun line => Notification.parse? line.toList) =
              (untilOdd told).map (fun ns => ns.map some)
          ∧ (told.flatten.all Notification.hasText = true → untilOdd told = told)
          ∧ json.failure =
              (if told.flatten.all Notification.hasText then none else some .notText)
          ∧ ∃ taken, taken <+: moves ∧ (json.failure = none → taken = moves)
            ∧ (v.told begun taken).length = json.ticks.length
            ∧ json.session = (v.stoppedAfter begun taken).1.session true
            ∧ json.world = (v.stoppedAfter begun taken).2
            ∧ (v.stoppedAfter begun taken).1.IsOver
            ∧ (world.holding? = some false → json.world.holding? = some false))
        ∧ ∀ script,
          let told := (v.told begun (movesOf script)).flatten
          run home world script args = ⟨0, outputOf (told.map (plainLine · false)), some said⟩
          ∧ ∃ output, readLines output.toList = some (told.takeWhile Notification.hasText)
            ∧ run home world script args' =
                if told.all Notification.hasText then ⟨0, output, some ""⟩
                else .ofFailure .notText output "" := by
  rcases @start_cases home world _ _ _ _ hplain hjson with
    hover | ⟨v, begun, period, said, hstart, hstart', hholds⟩
  · exact .inl hover
  refine .inr ⟨v, begun, period, said, hstart, hstart', ?_, ?_⟩
  · intro moves told plain json
    obtain ⟨hprinted, all, -, hall, -, hplain, hplainWorld⟩ := follow_session false v begun moves
    obtain ⟨hprinted', taken, hprefix, htaken, hlength, hsession, hworld⟩ :=
      follow_session true v begun moves
    rw [ticksOf_plain, Prod.mk.injEq] at hprinted
    rw [hall hprinted.2] at hplain hplainWorld
    have hticks : json.ticks = (ticksOf true told).1 := congrArg Prod.fst hprinted'
    refine ⟨⟨hprinted.1, hprinted.2, hplain, hplainWorld⟩, ?_, untilOdd_of_text, ?_, taken, hprefix,
      htaken, hlength, hsession, hworld, Watched.isOver_stop _ _, ?_⟩
    · rw [hticks, parse_ticksOf]
    · have hfailure : json.failure = (ticksOf true told).2 := congrArg Prod.snd hprinted'
      rw [hfailure, ← linesOf_failure, ← flatten_ticksOf]
    · intro hheld
      show ((v.session true).follow begun moves).world.holding? = some false
      rw [hworld]
      exact ((hholds hheld).after taken).stop
  · intro script told
    have hread := readLines_linesOf told
    have hfailure := linesOf_failure told
    constructor
    · rw [run, hstart, finish_eq_linesOf, linesOf_plain]
    · rw [run, hstart', finish_eq_linesOf]
      rcases hlines : linesOf true told with ⟨lines, failure⟩
      rw [hlines] at hread hfailure
      refine ⟨outputOf lines, hread, ?_⟩
      obtain rfl : failure = _ := hfailure
      by_cases htext : told.all Notification.hasText = true
      · rw [if_pos htext, if_pos htext]
      · rw [if_neg htext, if_neg htext]

/-- The arguments that words spell. -/
def argumentsOf (words : List String) : List Argument :=
  words.map fun word => Text.encode word.toList

/-- A directory in which a name that is no text comes between two that are, and a file that cannot
be watched and goes away: lines for people and of JSON tell the same of both, and JSON breaks off at
the name that is no text. -/
theorem json_breaks_off_at_odd_name :
    let added : NativeEvent :=
      ⟨.create .file, [⟨[0x2F, 0x61]⟩, ⟨[0x2F, 0xFF]⟩, ⟨[0x2F, 0x62]⟩], none, false⟩
    let listed : World := { disk := {} }
    let single : World :=
      { disk := { entries := [([[0x66]], .file [] ⟨0, 0⟩)] }
        openFault := some ⟨.tooManyWatches, []⟩ }
    let outcome (world : World) (script : List Happening) (words : List String) : Nat × String :=
      let result := run ⟨[Path.slash]⟩ world script (argumentsOf words)
      (result.status, result.output)
    (outcome listed [.event added, .nothing] ["watch", "/"] =
        (0, "added        /a\nadded        /\uFFFD\nadded        /b\n")
      ∧ outcome listed [.event added, .nothing] ["watch", "--json", "/"] =
        (failureStatus, "\x7b\"kind\":\"added\",\"path\":\"/a\"\x7d\n"))
    ∧ (outcome single [.edit (.remove ⟨[0x2F, 0x66]⟩)] ["watch", "/f"] = (0, "removed      /f\n")
      ∧ outcome single [.edit (.remove ⟨[0x2F, 0x66]⟩)] ["watch", "--json", "/f"] =
        (0, "\x7b\"kind\":\"removed\",\"path\":\"/f\"\x7d\n"))
    ∧ ∀ script, ∃ told : List Notification,
        (outcome listed script ["watch", "/"]).2 = outputOf (told.map (plainLine · false))
        ∧ readLines (outcome listed script ["watch", "--json", "/"]).2.toList =
          some (told.takeWhile Notification.hasText) := by
  intro added listed single outcome
  have hplainOutput : outcome listed [.event added, .nothing] ["watch", "/"] =
      (0, "added        /a\nadded        /\uFFFD\nadded        /b\n") := by decide +kernel
  have hjsonOutput : outcome listed [.event added, .nothing] ["watch", "--json", "/"] =
      (failureStatus, "\x7b\"kind\":\"added\",\"path\":\"/a\"\x7d\n") := by decide +kernel
  refine ⟨⟨hplainOutput, hjsonOutput⟩, ⟨by decide +kernel, by decide +kernel⟩, ?_⟩
  intro script
  have hplain : read (argumentsOf ["watch", "/"]) =
      .done ⟨none, .watch { path := ⟨[Path.slash]⟩, json := false }⟩ := rfl
  have hjson : read (argumentsOf ["watch", "--json", "/"]) =
      .done ⟨none, .watch { path := ⟨[Path.slash]⟩, json := true }⟩ := rfl
  rcases @json_changes_rendering ⟨[Path.slash]⟩ listed _ _ none { path := ⟨[Path.slash]⟩ } hplain
    hjson with ⟨r, hover, hover'⟩ | ⟨v, begun, period, said, -, -, -, hscripts⟩
  · -- the two would have printed the same
    have hsame : outcome listed [.event added, .nothing] ["watch", "/"] =
        outcome listed [.event added, .nothing] ["watch", "--json", "/"] := by
      simp only [outcome, run, hover, hover']
    rw [hplainOutput, hjsonOutput] at hsame
    exact absurd hsame (by decide)
  · obtain ⟨hprinted, output, hread, hprinted'⟩ := hscripts script
    refine ⟨(v.told begun (movesOf script)).flatten, ?_, ?_⟩
    · simp only [outcome, hprinted]
    · have houtput : (outcome listed script ["watch", "--json", "/"]).2 = output := by
        simp only [outcome, hprinted']
        split <;> rfl
      rw [houtput, hread]

end FileWatch.CommandLine

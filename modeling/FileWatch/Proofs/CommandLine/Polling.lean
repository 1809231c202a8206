import FileWatch.Proofs.CommandLine.Rendering
import FileWatch.Proofs.Detector.Looks

/-! # Polling — how the changes of a polled file are named

A file that cannot be watched is polled: it is looked at once, and then at every tick. What is
polled notes whether the file existed, beside what the detector knows, and names a change by this
note. What one tick tells and notes is said once (`Tells`, `Knows.news`): the changes of existence
take turns from that alone (`Knows.takes_turns`).

The note is what the latest look found that did not fail, with one exception (`Noting`). A first
look that fails is noted as a missing file. If the first look after it that does not fail finds the
file (`FoundLate`), this is no change, and the note stays until one is told. So each change is named
by the latest two looks that did not fail, but for the one that is told first after such a late find
(`polled_changes_named`), which is misnamed (`misnamed_after_failed_look`).
-/

namespace FileWatch

namespace CommandLine

/-- The change of existence that leaves the file there or not. -/
def turnTo (there : Bool) : ChangeKind := if there then .added else .removed

/-- The changes of existence that some notifications tell. -/
def turnsOf (ns : List Notification) : List ChangeKind :=
  (ns.map Notification.kind).filter ChangeKind.isNameChange

theorem turnTo_injective : Function.Injective turnTo := by
  intro there there' h
  cases there <;> cases there' <;> first | rfl | cases h

theorem turnsOf_append (ns ms : List Notification) :
    turnsOf (ns ++ ms) = turnsOf ns ++ turnsOf ms := by
  rw [turnsOf, List.map_append, List.filter_append]
  rfl

/-- Whether notifications name the change between what was found before and what a look finds
now. -/
structure NamesChange (p : Path) (before : Bool) (now : Option Bool) (ns : List Notification) :
    Prop where
  single : ns.length ≤ 1
  path : ∀ n ∈ ns, n.path = p
  kind : ∀ n ∈ ns, n.kind = .added ∨ n.kind = .removed ∨ n.kind = .modified
  added : ∀ n ∈ ns, n.kind = .added ↔ before = false ∧ now = some true
  removed : ∀ n ∈ ns, n.kind = .removed ↔ before = true ∧ now = some false
  modified : ∀ n ∈ ns, n.kind = .modified → before = true ∧ now = some true
  turned : now = some (!before) → ns ≠ []

namespace NamesChange

variable {p : Path} {before : Bool} {now : Option Bool}

theorem nothing (h : now ≠ some (!before)) : NamesChange p before now [] where
  single := Nat.zero_le 1
  path := by simp
  kind := by simp
  added := by simp
  removed := by simp
  modified := by simp
  turned hturned := absurd hturned h

/-- A change is named by both looks, one of which has found the file. -/
theorem change {found : Bool} (h : before = true ∨ found = true) :
    NamesChange p before (some found) [⟨kindOfChange before found, p⟩] := by
  rcases before with _ | _ <;> rcases found with _ | _
  · simp at h
  all_goals constructor <;> simp [kindOfChange]

/-- Of a file that was there, no change is named by the note that it was missing. -/
theorem not_of_missed {found : Bool} :
    ¬NamesChange p true (some found) [⟨kindOfChange false found, p⟩] := by
  intro h
  cases found with
  | false => exact absurd (h.modified _ (List.mem_singleton_self _) rfl).2 (by decide)
  | true => exact absurd ((h.added _ (List.mem_singleton_self _)).mp rfl).1 (by decide)

end NamesChange

/-! ### One tick -/

/-- What a tick tells and then notes, by what the latest look before it found that did not fail, by
what is noted and by what its own look finds. Before a look that does not fail, nothing is told. -/
inductive Tells (p : Path) (before : Option Bool) (noted : Bool) (now : Option Bool) :
    List Notification → Bool → Prop where
  | nothing (stays : ∀ b, before = some b → now ≠ some (!b)) : Tells p before noted now [] noted
  | change {b found : Bool} (hbefore : before = some b) (hnow : now = some found)
    (hone : b = true ∨ found = true) :
    Tells p before noted now [⟨kindOfChange noted found, p⟩] found

/-- A change of existence is told exactly if the note changes. -/
theorem Tells.turnsOf_eq {p : Path} {before now : Option Bool} {noted noted' : Bool}
    {ns : List Notification} (h : Tells p before noted now ns noted') :
    turnsOf ns = if noted' = noted then [] else [turnTo noted'] := by
  cases h with
  | nothing => rw [if_pos rfl]; rfl
  | change => cases noted <;> cases noted' <;> rfl

namespace Watched

/-- What there is to tell at one tick after the other, each in a world of its own. -/
def toldIn (v : Watched) : List World → List (List Notification)
  | [] => []
  | w :: ws => (v.news w).1 :: (v.news w).2.1.toldIn ws

/-- What is watched after one tick after the other. -/
def afterIn (v : Watched) (ws : List World) : Watched := ws.foldl (fun v w => (v.news w).2.1) v

/-- A file that begins to be polled, after a first look. -/
def polled (p : Path) (events : EventMask) (d : Disk) : Watched :=
  let t := ((Detector.ofMask p events).check d).2
  file t t.signature.exists?

/-- What is known of a polled file and what is noted: what the latest look found that did not fail,
if there was one, and whether the file is taken to have existed. -/
inductive Knows (p : Path) (before : Option Bool) (noted : Bool) : Watched → Prop where
  | file {t : Detector} (path : t.path = p) (sampled : t.signature.sampled = before.isSome)
    (seen : t.signature.exists? = before.getD false) : Knows p before noted (.file t noted)

theorem news_file (t : Detector) (existed : Bool) (w : World) :
    (file t existed).news w =
      if (t.check w.disk).1 then
        ([⟨kindOfChange existed (t.check w.disk).2.signature.exists?, t.path⟩],
          file (t.check w.disk).2 (t.check w.disk).2.signature.exists?, w)
      else ([], file (t.check w.disk).2 existed, w) := rfl

/-- After a first look, it is known and noted what was found; if the look failed, nothing is known
and the file is noted as missing. -/
theorem knows_polled (p : Path) (events : EventMask) (d : Disk) :
    (polled p events d).Knows p (d.finds? p) ((d.finds? p).getD false) := by
  let t := Detector.ofMask p events
  have hfound : (t.observe d).found? = d.finds? p := t.found?_observe d
  have hseen : (t.check d).2.signature.exists? = (d.finds? p).getD false := by
    rw [← hfound]
    exact Signature.exists?_record _ _
  have hsampled : (t.check d).2.signature.sampled = (d.finds? p).isSome := by
    rw [← hfound]
    exact (Signature.sampled_record _ _).trans (Bool.false_or _)
  rw [← hseen]
  exact .file rfl hsampled hseen

variable {p : Path} {before : Option Bool} {noted : Bool} {v : Watched}

/-- What a tick tells and what is known and noted after it. -/
theorem Knows.news (h : v.Knows p before noted) (w : World) :
    ∃ noted', Tells p before noted (w.disk.finds? p) (v.news w).1 noted'
      ∧ (v.news w).2.1.Knows p ((w.disk.finds? p).or before) noted' := by
  obtain @⟨t, rfl, hsampled, hseen⟩ := h
  rw [news_file, ← t.found?_observe]
  have hseen' : (t.check w.disk).2.signature.exists? =
      ((t.observe w.disk).found?.or before).getD false := by
    refine (Signature.exists?_record _ _).trans ?_
    rw [hseen]
    cases (t.observe w.disk).found? <;> rfl
  have hsampled' : (t.check w.disk).2.signature.sampled =
      ((t.observe w.disk).found?.or before).isSome := by
    refine (Signature.sampled_record _ _).trans ?_
    rw [hsampled, Option.isSome_or, Bool.or_comm]
  by_cases hchanged : (t.check w.disk).1 = true
  · obtain ⟨found, hfound, hone⟩ := Signature.found_of_changed hchanged
    rw [hfound] at hseen' hsampled' ⊢
    rw [if_pos hchanged, hseen']
    rcases before with _ | b
    · -- the first look that does not fail is only taken for a baseline
      have hunchanged : (t.check w.disk).1 = false := Signature.unchanged_of_unsampled hsampled
      rw [hunchanged] at hchanged
      cases hchanged
    · rw [hseen] at hone
      exact ⟨found, .change rfl rfl hone, .file rfl hsampled' hseen'⟩
  · rw [if_neg hchanged]
    refine ⟨noted, .nothing ?_, .file rfl hsampled' hseen'⟩
    rintro b rfl hturned
    have hturned : (t.observe w.disk).found? = some (!t.signature.exists?) := by
      rw [hturned, hseen]
      rfl
    exact hchanged (Signature.changed_of_turn hsampled hturned)

/-! ### One tick after the other -/

theorem toldIn_concat (v : Watched) (ws : List World) (w : World) :
    v.toldIn (ws ++ [w]) = v.toldIn ws ++ [((v.afterIn ws).news w).1] := by
  induction ws generalizing v with
  | nil => rfl
  | cons x ws ih =>
    rw [List.cons_append, toldIn, ih, toldIn, List.cons_append]
    rfl

theorem afterIn_concat (v : Watched) (ws : List World) (w : World) :
    v.afterIn (ws ++ [w]) = ((v.afterIn ws).news w).2.1 := by
  simp [afterIn]

theorem getElem?_toldIn (v : Watched) (earlier : List World) (w : World) (later : List World) :
    (v.toldIn (earlier ++ w :: later))[earlier.length]? = some ((v.afterIn earlier).news w).1 := by
  induction earlier generalizing v with
  | nil => rfl
  | cons e earlier ih => exact ih (v.news e).2.1

/-- The changes of existence take turns, from what is noted at first. -/
theorem Knows.takes_turns (h : v.Knows p before noted) (worlds : List World) :
    (turnTo noted :: turnsOf (v.toldIn worlds).flatten).IsChain (· ≠ ·) := by
  induction worlds generalizing v before noted with
  | nil => exact .singleton _
  | cons w worlds ih =>
    obtain ⟨noted', htells, hknows⟩ := h.news w
    have hrest := ih hknows
    rw [toldIn, List.flatten_cons, turnsOf_append, htells.turnsOf_eq]
    by_cases hstays : noted' = noted
    · rw [if_pos hstays, ← hstays]
      exact hrest
    · rw [if_neg hstays]
      exact .cons_cons (turnTo_injective.ne (Ne.symm hstays)) hrest

end Watched

/-! ### What is noted -/

/-- Whether the first look failed, the first of the others that did not fail found the file, and
nothing has been told. -/
structure FoundLate (p : Path) (first : Disk) (looks : List Disk) (told : List Notification) :
    Prop where
  failed : first.finds? p = none
  found : firstFound? looks p = some true
  silent : told = []

/-- What the latest look found that did not fail, and what is noted, after a first look and others,
at which some notifications were told. -/
inductive Noting (p : Path) (first : Disk) (looks : List Disk) (told : List Notification) :
    Option Bool → Bool → Prop where
  /-- All looks have failed. -/
  | unseen (failed : first.finds? p = none) (unfound : firstFound? looks p = none)
    (silent : told = []) : Noting p first looks told none false
  /-- The file was found late and is still noted as missing. -/
  | late (h : FoundLate p first looks told) : Noting p first looks told (some true) false
  | known {b : Bool} (h : ¬FoundLate p first looks told)
    (seen : first.finds? p ≠ none ∨ firstFound? looks p ≠ none) :
    Noting p first looks told (some b) b

section Noting

variable {p : Path} {first : Disk} {looks : List Disk} {told ns : List Notification}
  {before : Option Bool} {noted noted' : Bool}

/-- If a look had not failed before, one more makes no late find. -/
theorem FoundLate.of_concat {d : Disk} (h : FoundLate p first (looks ++ [d]) told)
    (seen : first.finds? p ≠ none ∨ firstFound? looks p ≠ none) : FoundLate p first looks told := by
  obtain ⟨hfailed, hfound, hsilent⟩ := h
  rcases seen with hseen | hseen
  · exact absurd hfailed hseen
  · obtain ⟨b, hb⟩ := Option.ne_none_iff_exists'.mp hseen
    rw [firstFound?_concat, hb] at hfound
    exact ⟨hfailed, hb.trans hfound, hsilent⟩

/-- Where existence does not turn, it is what it was before. -/
theorem or_of_ne_turn {now : Option Bool} {b : Bool} (h : now ≠ some (!b)) :
    now.or (some b) = some b := by
  rcases now with _ | found
  · rfl
  · simpa using h

theorem noting_first (p : Path) (first : Disk) :
    Noting p first [] [] (first.finds? p) ((first.finds? p).getD false) := by
  rcases hfirst : first.finds? p with _ | b
  · exact .unseen hfirst rfl rfl
  · have hseen : first.finds? p ≠ none := by simp [hfirst]
    exact .known (fun h => hseen h.failed) (.inl hseen)

/-- One more tick: what is told ends a late find, and the first look that does not fail may begin
one. -/
theorem Noting.concat (h : Noting p first looks told before noted) {d : Disk}
    (htells : Tells p before noted (d.finds? p) ns noted') :
    Noting p first (looks ++ [d]) (told ++ ns) ((d.finds? p).or before) noted' := by
  have hfirstFound := firstFound?_concat looks d p
  cases htells with
  | change _ hnow _ =>
    -- something has been told now, so no find is late, and what was found is noted
    rw [hnow] at hfirstFound ⊢
    refine .known (fun hlate => by simpa using hlate.silent) (.inr ?_)
    rw [hfirstFound]
    simp
  | nothing stays =>
    -- the note stays as it is, so it matters whether this is the first look that does not fail
    rw [List.append_nil]
    cases h with
    | unseen failed unfound silent =>
      rw [unfound, Option.none_or] at hfirstFound
      rw [Option.or_none, ← hfirstFound]
      rcases hfound : firstFound? (looks ++ [d]) p with _ | _ | _
      · exact .unseen failed hfound silent
      · exact .known (fun hlate => by simpa [hfound] using hlate.found) (.inr (by simp [hfound]))
      · exact .late ⟨failed, hfound, silent⟩
    | late hlate =>
      rw [hlate.found] at hfirstFound
      rw [or_of_ne_turn (stays true rfl)]
      exact .late ⟨hlate.failed, hfirstFound, hlate.silent⟩
    | known hnot seen =>
      rw [or_of_ne_turn (stays _ rfl)]
      refine .known (fun hlate => hnot (hlate.of_concat seen)) (seen.imp_right fun hseen => ?_)
      rw [hfirstFound]
      simp [hseen]

/-- After a late find, the file was found and is noted as missing. -/
theorem Noting.of_late (h : Noting p first looks told before noted)
    (hlate : FoundLate p first looks told) : before = some true ∧ noted = false := by
  cases h with
  | unseen _ unfound _ =>
    have hfound := hlate.found
    rw [unfound] at hfound
    cases hfound
  | late _ => exact ⟨rfl, rfl⟩
  | known hnot _ => exact absurd hlate hnot

/-- What is told names the change, unless it is the first after a late find. -/
theorem Noting.namesChange_iff {b : Bool} {now : Option Bool}
    (h : Noting p first looks told (some b) noted) (htells : Tells p (some b) noted now ns noted') :
    NamesChange p b now ns ↔ (FoundLate p first looks told → ns = []) := by
  cases htells with
  | nothing stays => exact ⟨fun _ _ => rfl, fun _ => .nothing (stays b rfl)⟩
  | change hbefore hnow hone =>
    cases hbefore
    cases hnow
    cases h with
    | late hlate =>
      refine ⟨fun hnames => absurd hnames NamesChange.not_of_missed, fun hsilent => ?_⟩
      cases hsilent hlate
    | known hnot _ => exact ⟨fun _ hlate => absurd hlate hnot, fun _ => .change hone⟩

/-- Whether what is told at a tick is named by the latest two looks that did not fail, but for what
is told first after a late find. -/
structure NamedUnlessLate (p : Path) (first : Disk) (looks : List Disk) (told : List Notification)
    (now : Option Bool) (ns : List Notification) : Prop where
  /-- While all looks fail, and at the first that does not, nothing is told. -/
  unseen : lastFound? (first :: looks) p = none → ns = []
  /-- What is told names the change, unless it is the first after a late find. -/
  named : ∀ before, lastFound? (first :: looks) p = some before →
    (NamesChange p before now ns ↔ (FoundLate p first looks told → ns = []))
  /-- What is told first after a late find is named as if the file had been missing. -/
  misnamed : FoundLate p first looks told →
    ∀ n ∈ ns, ∃ found, now = some found ∧ n = ⟨kindOfChange false found, p⟩

theorem Noting.namedUnlessLate {now : Option Bool}
    (h : Noting p first looks told (lastFound? (first :: looks) p) noted)
    (htells : Tells p (lastFound? (first :: looks) p) noted now ns noted') :
    NamedUnlessLate p first looks told now ns where
  unseen hnone := by
    rw [hnone] at htells
    cases htells with
    | nothing _ => rfl
    | change hbefore _ _ => cases hbefore
  named b hb := by
    rw [hb] at h htells
    exact h.namesChange_iff htells
  misnamed hlate n hn := by
    obtain ⟨-, rfl⟩ := h.of_late hlate
    cases htells with
    | nothing _ => cases hn
    | change _ hnow _ => exact ⟨_, hnow, List.mem_singleton.mp hn⟩

end Noting

/-- At every tick, what is noted is what `Noting` says. -/
theorem Watched.noting_afterIn (p : Path) (events : EventMask) (first : Disk)
    (earlier : List World) :
    ∃ noted, Noting p first (earlier.map World.disk) ((polled p events first).toldIn earlier).flatten
        (lastFound? (first :: earlier.map World.disk) p) noted
      ∧ ((polled p events first).afterIn earlier).Knows p
        (lastFound? (first :: earlier.map World.disk) p) noted := by
  induction earlier using List.reverseRecOn with
  | nil =>
    have hlast : lastFound? [first] p = first.finds? p := by
      rw [← List.nil_append [first], lastFound?_concat]
      exact Option.or_none
    rw [List.map_nil, hlast]
    exact ⟨_, noting_first p first, knows_polled p events first⟩
  | append_singleton earlier w ih =>
    obtain ⟨noted, hnoting, hknows⟩ := ih
    obtain ⟨noted', htells, hknows'⟩ := hknows.news w
    refine ⟨noted', ?_⟩
    rw [List.map_append, ← List.cons_append, List.map_singleton, lastFound?_concat, toldIn_concat,
      List.flatten_append, List.flatten_singleton, afterIn_concat]
    exact ⟨hnoting.concat htells, hknows'⟩

namespace Watched

/-! ### Everything that happens -/

/-- The worlds that ticks among moves meet, if nothing but the happenings changes them. -/
def worldsAtTicks (world : World) : List Move → List World
  | [] => []
  | .tick :: rest => world :: worldsAtTicks world rest
  | .happening _ h :: rest => worldsAtTicks (world.meet h) rest

/-- To look at a file changes nothing around it. -/
theorem told_file (t : Detector) (existed : Bool) (world : World) (moves : List Move) :
    (file t existed).told world moves = (file t existed).toldIn (worldsAtTicks world moves) := by
  induction moves generalizing t existed world with
  | nil => rfl
  | cons m rest ih =>
    rcases m with _ | ⟨now, h⟩
    · rw [told, worldsAtTicks, toldIn, news_file]
      split
      · rw [ih]
      · rw [ih]
    · exact ih t existed (world.meet h)

end Watched

/-! ### What `watch` polls -/

theorem timed_eq_session {every period : Duration} {status : Nat} {s s' : Session}
    {world begun : World} {saying said : String}
    (h : Start.timed every status s world saying = .session s' begun period said) :
    s = s' ∧ world = begun := by
  rw [Start.timed] at h
  by_cases hevery : (every == Duration.zero) = true
  · rw [if_pos hevery] at h
    cases h
  · rw [if_neg hevery] at h
    cases h
    exact ⟨rfl, rfl⟩

variable {world begun : World} {c : Config} {a : WatchArguments} {t : Detector}
  {existed json : Bool} {period : Duration} {said : String}

/-- What `watch` begins to poll is looked at first. -/
theorem polled_of_startWatch
    (h : startWatch world c a = .session (.looking t existed json) begun period said) :
    ∃ events, resolveEvents a.events c.events = .ok events
      ∧ Watched.file t existed = .polled a.path events begun.disk := by
  simp only [startWatch] at h
  rcases hevents : resolveEvents a.events c.events with f | events
  · rw [hevents] at h
    cases h
  rw [hevents] at h
  rcases hwatch : (if c.backend.isSome then c.watcher else Services.native.watcher).watch world
    ⟨a.path, events, watchOptions c a⟩ with ⟨established, f, world'⟩
  simp only [hwatch] at h
  by_cases hestablished : established = true
  · rw [if_pos hestablished] at h
    cases (timed_eq_session h).1
  · rw [if_neg hestablished] at h
    by_cases hfile : (!(watchOptions c a).recursive && world'.disk.isFileAt a.path) = true
    · rw [if_pos hfile] at h
      obtain ⟨hsession, rfl⟩ := timed_eq_session h
      cases hsession
      exact ⟨events, rfl, rfl⟩
    · rw [if_neg hfile] at h
      cases h

/-- A file that cannot be watched is polled, unless there is no time between ticks. -/
theorem startWatch_of_refused {events : EventMask}
    (hevents : resolveEvents a.events c.events = .ok events)
    (hrefused : ((if c.backend.isSome then c.watcher else Services.native.watcher).watch world
      ⟨a.path, events, watchOptions c a⟩).1 = false)
    (hbegun : ((if c.backend.isSome then c.watcher else Services.native.watcher).watch world
      ⟨a.path, events, watchOptions c a⟩).2.2 = begun)
    (hfile : (!(watchOptions c a).recursive && begun.disk.isFileAt a.path) = true)
    (hperiod : (CommandLine.period c a.intervalMs == Duration.zero) = false) :
    startWatch world c a =
      .session ((Watched.polled a.path events begun.disk).session a.json) begun
        (CommandLine.period c a.intervalMs) "" := by
  simp only [startWatch, hevents]
  rcases hwatch : (if c.backend.isSome then c.watcher else Services.native.watcher).watch world
    ⟨a.path, events, watchOptions c a⟩ with ⟨established, f, world'⟩
  rw [hwatch] at hrefused hbegun
  obtain rfl : established = false := hrefused
  obtain rfl : world' = begun := hbegun
  simp only [if_pos hfile, Start.timed, hperiod]
  rfl

/-- **The changes of a polled file are named by the latest two looks that did not fail, but for the
one that is told first after a late find.** Whatever the first look finds and the looks at the ticks
find, and whichever of them fail, what is told at a tick names the change since the latest look
before it that did not fail: the file is added if it was missing and is there, removed if it was
there and is missing, and modified only if it was there both times. Nothing is told as long as all
looks fail, nor by the first that does not.

If the first look fails and the first one after it that does not fail finds the file, what is told
next is named as if the file had been missing: it is added if it is still there, and modified if it
is missing. In any case it is added and removed in turn, as the first look has it noted. Through any
moves, the lines of what is told so are what the command prints, and all that `watch` polls is such
a file. It has just found a file at the path then, but nothing keeps the file there, so the first
look may be any. -/
theorem polled_changes_named (p : Path) (events : EventMask) (first : Disk) :
    (∀ (earlier : List World) (w : World) (later : List World), ∃ ns,
      ((Watched.polled p events first).toldIn (earlier ++ w :: later))[earlier.length]? = some ns
        ∧ NamedUnlessLate p first (earlier.map World.disk)
          ((Watched.polled p events first).toldIn earlier).flatten (w.disk.finds? p) ns)
      ∧ (∀ worlds, (turnTo ((first.finds? p).getD false) ::
        turnsOf ((Watched.polled p events first).toldIn worlds).flatten).IsChain (· ≠ ·))
      ∧ (∀ json begun moves,
        let course := ((Watched.polled p events first).session json).follow begun moves
        (course.ticks, course.failure) =
          ticksOf json
            ((Watched.polled p events first).toldIn (Watched.worldsAtTicks begun moves)))
      ∧ ∀ world c a t existed json begun period said,
        startWatch world c a = .session (.looking t existed json) begun period said →
          ∃ events', resolveEvents a.events c.events = .ok events' ∧ .looking t existed json =
            (Watched.polled a.path events' begun.disk).session json := by
  refine ⟨fun earlier w later => ?_, (Watched.knows_polled p events first).takes_turns,
    fun json begun moves => ?_, ?_⟩
  · obtain ⟨noted, hnoting, hknows⟩ := Watched.noting_afterIn p events first earlier
    obtain ⟨noted', htells, -⟩ := hknows.news w
    exact ⟨_, Watched.getElem?_toldIn _ earlier w later, hnoting.namedUnlessLate htells⟩
  · rw [Watched.polled, ← Watched.told_file]
    exact (follow_session json _ begun moves).1
  · intro world c a t existed json begun period said h
    obtain ⟨events', hevents, hpolled⟩ := polled_of_startWatch h
    exact ⟨events', hevents, congrArg (Watched.session json) hpolled⟩

/-- A file that cannot be looked at first is found at a later tick: its growth is told as if it were
new, and from then on what is told is right. A file that cannot be watched is polled. -/
theorem polled_changes_named_of_late_file :
    let p : Path := ⟨[0x2F, 0x61, 0x2F, 0x62]⟩
    let holding (content : List UInt8) : World :=
      { disk := { entries := [([[0x61]], .directory), ([[0x61], [0x62]], .file content ⟨0, 0⟩)] } }
    let blocked : World := { disk := { entries := [([[0x61]], .file [] ⟨0, 0⟩)] } }
    let gone : World := { disk := { entries := [] } }
    let v := Watched.polled p (.single .size) blocked.disk
    let unwatchable : NativeError := ⟨.tooManyWatches, []⟩
    let begun : World :=
      { holding [1] with journal := [.openFailed, .refused (.native unwatchable)] }
    let t : Detector := ((Detector.ofMask p EventMask.standard).check begun.disk).2
    v.toldIn [blocked, holding [1], holding [1, 2], blocked, gone, holding [1]] =
        [[], [], [⟨.added, p⟩], [], [⟨.removed, p⟩], [⟨.added, p⟩]]
      ∧ NamesChange p true (some false) [⟨.removed, p⟩]
      ∧ startWatch { holding [1] with openFault := some unwatchable } {} { path := p } =
        .session (.looking t true false) begun (CommandLine.period {} none) ""
      ∧ ∃ events, resolveEvents none EventMask.standard = .ok events
        ∧ .looking t true false = (Watched.polled p events begun.disk).session false := by
  intro p holding blocked gone v unwatchable begun t
  have htold : v.toldIn [blocked, holding [1], holding [1, 2], blocked, gone, holding [1]] =
      [[], [], [⟨.added, p⟩], [], [⟨.removed, p⟩], [⟨.added, p⟩]] := by decide +kernel
  have hstart : startWatch { holding [1] with openFault := some unwatchable } {} { path := p } =
      .session (.looking t true false) begun (CommandLine.period {} none) "" :=
    startWatch_of_refused rfl (by decide +kernel) (by decide +kernel) (by decide +kernel)
      (by decide +kernel)
  obtain ⟨hnamed, -, -, hpolled⟩ := polled_changes_named p (.single .size) blocked.disk
  refine ⟨htold, ?_, hstart, hpolled _ _ _ _ _ _ _ _ _ hstart⟩
  obtain ⟨ns, hns, hnames⟩ :=
    hnamed [blocked, holding [1], holding [1, 2], blocked] gone [holding [1]]
  have hlast : lastFound? (blocked.disk ::
      [blocked, holding [1], holding [1, 2], blocked].map World.disk) p = some true := by
    decide +kernel
  have hearlier : (v.toldIn [blocked, holding [1], holding [1, 2], blocked]).flatten =
      [⟨.added, p⟩] := by decide +kernel
  have hgone : gone.disk.finds? p = some false := by decide +kernel
  obtain rfl : [⟨.removed, p⟩] = ns := Option.some.inj ((congrArg (·[4]?) htold).symm.trans hns)
  rw [← hgone]
  refine (hnames.named true hlast).mpr fun hlate => ?_
  have hsilent := hlate.silent
  rw [hearlier] at hsilent
  cases hsilent

/-- After a first look that fails, a file that is found at the first tick and then grows is told to
be new, although it was there, and one that then goes is told to be modified, although it is
missing. -/
theorem misnamed_after_failed_look :
    let p : Path := ⟨[0x2F, 0x61, 0x2F, 0x62]⟩
    let holding (content : List UInt8) : World :=
      { disk := { entries := [([[0x61]], .directory), ([[0x61], [0x62]], .file content ⟨0, 0⟩)] } }
    let blocked : World := { disk := { entries := [([[0x61]], .file [] ⟨0, 0⟩)] } }
    let gone : World := { disk := { entries := [] } }
    let v := Watched.polled p (.single .size) blocked.disk
    ((holding [1]).disk.finds? p = some true
        ∧ (holding [1, 2]).disk.finds? p = some true
        ∧ v.toldIn [holding [1], holding [1, 2]] = [[], [⟨.added, p⟩]]
        ∧ ¬NamesChange p true (some true) [⟨.added, p⟩])
      ∧ gone.disk.finds? p = some false
      ∧ v.toldIn [holding [1], gone] = [[], [⟨.modified, p⟩]]
      ∧ ¬NamesChange p true (some false) [⟨.modified, p⟩] := by
  intro p holding blocked gone v
  exact ⟨⟨by decide +kernel, by decide +kernel, by decide +kernel, NamesChange.not_of_missed⟩,
    by decide +kernel, by decide +kernel, NamesChange.not_of_missed⟩

end CommandLine

end FileWatch

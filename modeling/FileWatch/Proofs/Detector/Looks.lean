import FileWatch.Detector
import FileWatch.Proofs.Signature.History

/-! # Looks — what a detector goes by

A look at a path finds something, finds nothing or fails (`Disk.finds?`), and a detector goes by
that and by the attributes that its mask tracks (`observe_eq`). What it has seen is a history of
observations, so what a signature keeps of a history (`Signature.ofHistory`) tells what a detector
answers: two histories whose looks agree on what the mask tracks get the same answers, and a
detector that tracks nothing more reports when looks that succeed change between something and
nothing (`sees_what_is_tracked`).
-/

namespace FileWatch

/-- What a look at a path finds: something, nothing, or neither can be told. -/
def Disk.finds? (d : Disk) (p : Path) : Option Bool :=
  match d.status p with
  | .ok _ => some true
  | .error .notFound => some false
  | .error _ => none

/-- What the latest of some looks found that did not fail. -/
def lastFound? (ds : List Disk) (p : Path) : Option Bool :=
  (ds.filterMap fun d => d.finds? p).getLast?

/-- What the first of some looks found that did not fail. -/
def firstFound? (ds : List Disk) (p : Path) : Option Bool :=
  (ds.filterMap fun d => d.finds? p).head?

theorem lastFound?_concat (ds : List Disk) (d : Disk) (p : Path) :
    lastFound? (ds ++ [d]) p = (d.finds? p).or (lastFound? ds p) := by
  rw [lastFound?, lastFound?, List.filterMap_append, List.getLast?_append]
  cases h : d.finds? p <;> simp [h]

theorem firstFound?_concat (ds : List Disk) (d : Disk) (p : Path) :
    firstFound? (ds ++ [d]) p = (firstFound? ds p).or (d.finds? p) := by
  rw [firstFound?, firstFound?, List.filterMap_append, List.head?_append]
  cases h : d.finds? p <;> simp [h]

/-- The size that is seen of an entry. All directories have the same. -/
def Entry.seenSize : Entry → Nat
  | .file content _ => content.length
  | .directory | .link _ => Detector.directorySize

/-- The time of modification that is seen of an entry. All directories have the same. -/
def Entry.seenTime : Entry → Moment
  | .file _ modified => modified
  | .directory | .link _ => Detector.directoryTime

namespace Observation

/-- What the observation finds. -/
def found? : Observation → Option Bool
  | present _ _ => some true
  | missing => some false
  | unknown => none

theorem found?_eq_some {o : Observation} {now : Bool} :
    o.found? = some now ↔ o ≠ .unknown ∧ o.isPresent = now := by
  cases o with
  | unknown => simp [found?]
  | missing | present _ _ => simp [found?, isPresent]

end Observation

/-- The latest telling observation is the latest that found something or nothing. -/
theorem isPresent_lastTelling? (os : List Observation) :
    (lastTelling? os).map Observation.isPresent = (os.filterMap Observation.found?).getLast? := by
  induction os using List.reverseRecOn with
  | nil => rfl
  | append_singleton os o ih =>
    cases o with
    | unknown =>
      rw [lastTelling?_concat_unknown, ih, List.filterMap_append]
      simp [Observation.found?]
    | missing | present _ _ =>
      rw [lastTelling?_concat Observation.noConfusion, List.filterMap_append]
      simp [Observation.found?, Observation.isPresent]

namespace Signature

variable {s : Signature} {o : Observation}

theorem exists?_record (s : Signature) (o : Observation) :
    (s.record o).2.exists? = o.found?.getD s.exists? := by
  cases o <;> rfl

theorem sampled_record (s : Signature) (o : Observation) :
    (s.record o).2.sampled = (s.sampled || o.found?.isSome) := by
  cases o with
  | unknown => exact (Bool.or_false s.sampled).symm
  | missing | present _ _ => exact (Bool.or_true s.sampled).symm

/-- Without a baseline there is no change. -/
theorem unchanged_of_unsampled (h : s.sampled = false) : (s.record o).1 = false := by
  cases o <;> simp [record, h]

/-- An observation that shows a change finds the file, or misses one that was there. -/
theorem found_of_changed (h : (s.record o).1 = true) :
    ∃ found, o.found? = some found ∧ (s.exists? = true ∨ found = true) := by
  cases o with
  | unknown => cases h
  | missing => exact ⟨false, rfl, .inl (Bool.and_eq_true_iff.mp h).2⟩
  | present size modified => exact ⟨true, rfl, .inr rfl⟩

/-- Another existence than the one that is known is a change. -/
theorem changed_of_turn (hsampled : s.sampled = true) (h : o.found? = some (!s.exists?)) :
    (s.record o).1 = true := by
  cases o with
  | unknown => cases h
  | missing =>
    have hexists : s.exists? = true := by simpa [Observation.found?] using h
    rw [record, hsampled, hexists]
    rfl
  | present size modified =>
    have hexists : s.exists? = false := by simpa [Observation.found?] using h
    rw [record, hsampled, hexists]
    rfl

end Signature

namespace Detector

/-! ### One look after the other -/

/-- The detector after looks at one disk after the other. -/
def after (t : Detector) (ds : List Disk) : Detector := ds.foldl (fun t d => (t.check d).2) t

/-- What the detector says at each of the disks, one look after the other. -/
def answers (t : Detector) : List Disk → List Bool
  | [] => []
  | d :: ds => (t.check d).1 :: (t.check d).2.answers ds

@[simp] theorem after_concat (t : Detector) (ds : List Disk) (d : Disk) :
    t.after (ds ++ [d]) = ((t.after ds).check d).2 := by
  simp [after]

/-- A detector answers by recording what it observes. -/
theorem answers_eq_recordAll (t : Detector) (ds : List Disk) :
    t.answers ds = (t.signature.recordAll (ds.map t.observe)).map Prod.fst := by
  induction ds generalizing t with
  | nil => rfl
  | cons d ds ih =>
    rw [answers, ih]
    rfl

theorem observe_eq (t : Detector) (d : Disk) :
    t.observe d =
      match d.status t.path with
      | .ok entry =>
        .present (if t.tracksSize then some entry.seenSize else none)
          (if t.tracksModified then some entry.seenTime else none)
      | .error .notFound => .missing
      | .error _ => .unknown := by
  rw [observe]
  rcases d.status t.path with fault | entry
  · cases fault <;> rfl
  · cases entry <;> rfl

theorem found?_observe (t : Detector) (d : Disk) : (t.observe d).found? = d.finds? t.path := by
  rw [observe_eq, Disk.finds?]
  rcases d.status t.path with fault | entry
  · cases fault <;> rfl
  · rfl

theorem filterMap_observe (t : Detector) (ds : List Disk) :
    ((ds.map t.observe).filterMap Observation.found?).getLast? = lastFound? ds t.path := by
  rw [List.filterMap_map]
  exact congrArg List.getLast? (List.filterMap_congr fun d _ => found?_observe t d)

/-! ### What a mask tracks -/

/-- Whether looks at a path show the same of two disks, as far as a mask tracks it: they fail in the
same way, or they find something with the same size, if that is tracked, and the same time of
modification, if that is tracked. -/
inductive Alike (mask : EventMask) (path : Path) (d d' : Disk) : Prop
  | missing (h : d.status path = .error .notFound) (h' : d'.status path = .error .notFound)
  | failed {fault fault' : DiskFault} (h : d.status path = .error fault)
    (h' : d'.status path = .error fault') (hfault : fault ≠ .notFound)
    (hfault' : fault' ≠ .notFound)
  | found {entry entry' : Entry} (h : d.status path = .ok entry) (h' : d'.status path = .ok entry')
    (size : mask.contains (.single .size) = true → entry.seenSize = entry'.seenSize)
    (time : mask.contains (.single .lastWrite) = true → entry.seenTime = entry'.seenTime)

/-- A look that fails but for a missing file tells nothing. -/
theorem observe_of_failed {t : Detector} {d : Disk} {fault : DiskFault}
    (h : d.status t.path = .error fault) (hfault : fault ≠ .notFound) :
    t.observe d = .unknown := by
  rw [observe_eq, h]
  cases fault with
  | notFound => exact absurd rfl hfault
  | notADirectory | isADirectory | nameTooLong | tooManyLinks | nulByte | notText => rfl

/-- An attribute that agrees if it is tracked is observed alike. -/
theorem ite_some_eq {α : Type} {tracked : Bool} {a a' : α} (h : tracked = true → a = a') :
    (if tracked then some a' else none) = if tracked then some a else none := by
  cases tracked with
  | false => rfl
  | true => rw [h rfl]

/-- Looks that show the same as far as it is tracked are observed alike. -/
theorem Alike.observe_eq {mask : EventMask} {path : Path} {d d' : Disk}
    (h : Alike mask path d d') : (ofMask path mask).observe d' = (ofMask path mask).observe d := by
  cases h with
  | missing h h' =>
    rw [Detector.observe_eq, Detector.observe_eq]
    simp only [ofMask, h, h']
  | failed h h' hfault hfault' =>
    exact (observe_of_failed h' hfault').trans (observe_of_failed h hfault).symm
  | found h h' size time =>
    rw [Detector.observe_eq, Detector.observe_eq]
    simp only [ofMask, h, h']
    exact congrArg₂ Observation.present (ite_some_eq size) (ite_some_eq time)

theorem answers_of_alike {mask : EventMask} {path : Path} {ds ds' : List Disk}
    (h : List.Forall₂ (Alike mask path) ds ds') :
    (ofMask path mask).answers ds' = (ofMask path mask).answers ds := by
  have hobserved : ds'.map (ofMask path mask).observe = ds.map (ofMask path mask).observe := by
    induction h with
    | nil => rfl
    | cons halike _ ih => rw [List.map_cons, List.map_cons, halike.observe_eq, ih]
  rw [answers_eq_recordAll, answers_eq_recordAll, hobserved]

/-- Of a mask, a detector takes over what is tracked. -/
theorem ofMask_congr {mask mask' : EventMask} (path : Path)
    (hsize : mask'.contains (.single .size) = mask.contains (.single .size))
    (htime : mask'.contains (.single .lastWrite) = mask.contains (.single .lastWrite)) :
    ofMask path mask' = ofMask path mask := by
  rw [ofMask, ofMask, hsize, htime]

/-! ### What is left without attributes -/

/-- Whether looks change between something and nothing, those that fail left out. -/
def Turns (earlier : List Disk) (d : Disk) (p : Path) : Prop :=
  ∃ before now, lastFound? earlier p = some before ∧ d.finds? p = some now ∧ before ≠ now

theorem turns_iff {earlier : List Disk} {d : Disk} {t : Detector} :
    Turns earlier d t.path ↔
      t.observe d ≠ .unknown ∧ ∃ last, lastTelling? (earlier.map t.observe) = some last
        ∧ (t.observe d).isPresent ≠ last.isPresent := by
  have hbefore : lastFound? earlier t.path
      = (lastTelling? (earlier.map t.observe)).map Observation.isPresent := by
    rw [isPresent_lastTelling?, filterMap_observe]
  constructor
  · rintro ⟨before, now, hlast, hnow, hturn⟩
    rw [hbefore, Option.map_eq_some_iff] at hlast
    obtain ⟨last, hlast, rfl⟩ := hlast
    rw [← found?_observe, Observation.found?_eq_some] at hnow
    obtain ⟨htells, rfl⟩ := hnow
    exact ⟨htells, last, hlast, hturn.symm⟩
  · rintro ⟨htells, last, hlast, hturn⟩
    refine ⟨last.isPresent, (t.observe d).isPresent, ?_, ?_, hturn.symm⟩
    · rw [hbefore, hlast]
      rfl
    · rw [← found?_observe, Observation.found?_eq_some]
      exact ⟨htells, rfl⟩

/-- A detector that tracks no attribute reports exactly the changes between something and
nothing. -/
theorem changed_iff_turns {t : Detector} (hsize : t.tracksSize = false)
    (htime : t.tracksModified = false) (earlier : List Disk) (d : Disk) :
    ((Signature.fresh.after (earlier.map t.observe)).record (t.observe d)).1 = true ↔
      Turns earlier d t.path := by
  have hbare : (t.observe d).size? = none ∧ (t.observe d).modified? = none := by
    rw [observe_eq, hsize, htime]
    rcases d.status t.path with fault | entry
    · cases fault <;> exact ⟨rfl, rfl⟩
    · exact ⟨rfl, rfl⟩
  rw [Signature.after_fresh, Signature.changed_iff, turns_iff]
  simp [Supersedes, hbare]

/-- **A detector sees only what its mask tracks.** Along two histories of a disk whose looks at the
path agree on what the mask tracks, a detector gives the same answer at every look, and so does one
whose mask differs only in what is not tracked. If neither the size nor the time of modification is
tracked, a look is answered with a change exactly if it succeeds and tells of another existence than
the latest one before it that succeeded. -/
theorem sees_what_is_tracked (path : Path) :
    (∀ (mask mask' : EventMask) (ds ds' : List Disk),
      mask'.contains (.single .size) = mask.contains (.single .size) →
      mask'.contains (.single .lastWrite) = mask.contains (.single .lastWrite) →
      List.Forall₂ (Alike mask path) ds ds' →
      (ofMask path mask').answers ds' = (ofMask path mask).answers ds)
      ∧ ∀ mask : EventMask, mask.contains (.single .size) = false →
        mask.contains (.single .lastWrite) = false →
        ∀ (earlier : List Disk) (d : Disk) (later : List Disk), ∃ changed,
          ((ofMask path mask).answers (earlier ++ d :: later))[earlier.length]? = some changed
            ∧ (changed = true ↔ Turns earlier d path) := by
  refine ⟨fun mask mask' ds ds' hsize htime halike => ?_, ?_⟩
  · rw [ofMask_congr path hsize htime, answers_of_alike halike]
  intro mask hsize htime earlier d later
  have hchanged := changed_iff_turns (t := ofMask path mask) hsize htime earlier d
  refine ⟨_, ?_, hchanged⟩
  rw [answers_eq_recordAll, List.map_append, List.map_cons, List.getElem?_map,
    ← List.length_map (ofMask path mask).observe, Signature.getElem?_recordAll]
  rfl

/-- A file that grows and goes, with a look in between that fails: another file of the same sizes,
with other times and another fault, makes no difference to what a detector of sizes answers, and
without sizes only the end is a change. -/
theorem sees_what_is_tracked_of_growth :
    let path : Path := ⟨[0x2F, 0x61, 0x2F, 0x62]⟩
    let holding (content : List UInt8) (modified : Moment) : Disk :=
      { entries := [([[0x61]], .directory), ([[0x61], [0x62]], .file content modified)] }
    let blocked : Disk := { entries := [([[0x61]], .file [] ⟨0, 0⟩)] }
    let looped : Disk := { entries := [([[0x61]], .link ⟨[0x61]⟩)] }
    let empty : Disk := { entries := [] }
    let grown : List Disk := [holding [1] ⟨0, 0⟩, blocked, holding [1, 2] ⟨0, 0⟩]
    let touched : List Disk := [holding [3] ⟨5, 0⟩, looped, holding [4, 5] ⟨6, 0⟩]
    let sizes : EventMask := .single .size
    (ofMask path sizes).answers (grown ++ [empty]) = [false, false, true, true]
      ∧ (ofMask path (sizes ||| .single .security)).answers (touched ++ [empty]) =
        [false, false, true, true]
      ∧ ((ofMask path (.single .fileName)).answers (grown ++ [empty]))[3]? = some true := by
  intro path holding blocked looped empty grown touched sizes
  have hgrown : (ofMask path sizes).answers (grown ++ [empty]) = [false, false, true, true] := by
    decide +kernel
  obtain ⟨halike, hturns⟩ := sees_what_is_tracked path
  refine ⟨hgrown, ?_, ?_⟩
  · refine (halike sizes _ (grown ++ [empty]) _ (by decide) (by decide) ?_).trans hgrown
    have hfound (content : List UInt8) (modified : Moment) :
        (holding content modified).status path = .ok (.file content modified) := rfl
    have hfirst : Alike sizes path (holding [1] ⟨0, 0⟩) (holding [3] ⟨5, 0⟩) :=
      .found (hfound _ _) (hfound _ _) (fun _ => rfl) fun h => absurd h (by decide)
    have hblocked : blocked.status path = .error .notADirectory := by decide +kernel
    have hlooped : looped.status path = .error .tooManyLinks := by decide +kernel
    have hfailed : Alike sizes path blocked looped :=
      .failed hblocked hlooped (by decide) (by decide)
    have hsecond : Alike sizes path (holding [1, 2] ⟨0, 0⟩) (holding [4, 5] ⟨6, 0⟩) :=
      .found (hfound _ _) (hfound _ _) (fun _ => rfl) fun h => absurd h (by decide)
    have hgone : Alike sizes path empty empty := .missing (by decide +kernel) (by decide +kernel)
    exact .cons hfirst (.cons hfailed (.cons hsecond (.cons hgone .nil)))
  · obtain ⟨changed, hanswer, hchanged⟩ :=
      hturns (.single .fileName) (by decide) (by decide) grown empty []
    have hturn : Turns grown empty path :=
      ⟨true, false, by decide +kernel, by decide +kernel, by decide⟩
    rw [hchanged.mpr hturn] at hanswer
    exact hanswer

end Detector

end FileWatch

import FileWatch.Signature
import Mathlib.Data.List.DropRight

/-! # History — a signature keeps what was told last

`Signature.ofHistory` says what is known of a file after some observations: what the latest telling
one said of its existence, and of each attribute the latest value supplied since the file was last
missing. Recording one observation after the other comes to just this (`after_fresh`), so whether an
observation shows a change can be read off the history (`changed_iff`). Observations that tell
nothing leave no trace (`recordAll_of_telling`).
-/

namespace FileWatch

namespace Observation

/-- Whether the observation tells if there is anything at the path. -/
def tells (o : Observation) : Bool := o ≠ .unknown

/-- Whether the observation says that there is something at the path. -/
def isPresent : Observation → Bool
  | present _ _ => true
  | missing | unknown => false

@[simp] theorem isPresent_present (size : Option Nat) (modified : Option Moment) :
    (present size modified).isPresent = true := rfl

/-- The size that the observation supplies. -/
def size? : Observation → Option Nat
  | present size _ => size
  | missing | unknown => none

/-- The time of modification that the observation supplies. -/
def modified? : Observation → Option Moment
  | present _ modified => modified
  | missing | unknown => none

end Observation

/-! ### What observations told last -/

/-- The latest observation that told whether there is anything at the path. -/
def lastTelling? (os : List Observation) : Option Observation :=
  (os.filter Observation.tells).getLast?

/-- The observations after the latest one that found nothing, or all if there is none. -/
def sinceMissing (os : List Observation) : List Observation := os.rtakeWhile fun o => o ≠ .missing

section Attribute

variable {α : Type} (get : Observation → Option α) {os : List Observation} {o : Observation}

/-- The latest value of an attribute that was supplied since the file was last missing. -/
def lastSupplied? (os : List Observation) : Option α :=
  ((sinceMissing os).filterMap get).getLast?

theorem lastTelling?_concat_unknown (os : List Observation) :
    lastTelling? (os ++ [.unknown]) = lastTelling? os := by
  simp [lastTelling?, Observation.tells]

theorem lastTelling?_concat (ho : o ≠ .unknown) (os : List Observation) :
    lastTelling? (os ++ [o]) = some o := by
  simp [lastTelling?, Observation.tells, ho]

theorem lastSupplied?_concat_missing (os : List Observation) :
    lastSupplied? get (os ++ [.missing]) = none := by
  have hcut : sinceMissing (os ++ [.missing]) = [] :=
    List.rtakeWhile_concat_neg _ os Observation.missing (by simp)
  rw [lastSupplied?, hcut]
  rfl

theorem lastSupplied?_concat (ho : o ≠ .missing) (os : List Observation) :
    lastSupplied? get (os ++ [o]) = (get o).or (lastSupplied? get os) := by
  have hkept : sinceMissing (os ++ [o]) = sinceMissing os ++ [o] :=
    List.rtakeWhile_concat_pos _ os o (by simpa using ho)
  rw [lastSupplied?, hkept, List.filterMap_append]
  cases hsupplied : get o with
  | none => simp [hsupplied, lastSupplied?]
  | some a => simp [hsupplied]

/-- Whether an observation supplies another value of an attribute than the latest one supplied. -/
def Supersedes (os : List Observation) (o : Observation) : Prop :=
  ∃ before now, lastSupplied? get os = some before ∧ get o = some now ∧ before ≠ now

/-- Nothing was supplied since the file was last missing, if that is the latest that was told. -/
theorem lastSupplied?_of_absent (hunknown : get .unknown = none)
    (h : ∀ last, lastTelling? os = some last → last.isPresent = false) :
    lastSupplied? get os = none := by
  induction os using List.reverseRecOn with
  | nil => rfl
  | append_singleton os o ih =>
    cases o with
    | unknown =>
      rw [lastTelling?_concat_unknown] at h
      rw [lastSupplied?_concat get Observation.noConfusion, hunknown, ih h]
      rfl
    | missing => exact lastSupplied?_concat_missing get os
    | present size modified =>
      have hpresent := h _ (lastTelling?_concat Observation.noConfusion os)
      cases hpresent

end Attribute

namespace Signature

/-! ### The signature of a history -/

/-- The signature after one observation after the other. -/
def after (s : Signature) (os : List Observation) : Signature :=
  os.foldl (fun s o => (s.record o).2) s

/-- What is known of a file after some observations. -/
def ofHistory (os : List Observation) : Signature where
  exists? := (lastTelling? os).any Observation.isPresent
  size := lastSupplied? Observation.size? os
  modified := lastSupplied? Observation.modified? os
  sampled := (lastTelling? os).isSome

@[simp] theorem after_concat (s : Signature) (os : List Observation) (o : Observation) :
    s.after (os ++ [o]) = ((s.after os).record o).2 := by
  simp [after]

/-- To record an observation is to add it to the history. -/
theorem record_ofHistory (os : List Observation) (o : Observation) :
    ((ofHistory os).record o).2 = ofHistory (os ++ [o]) := by
  cases o with
  | unknown =>
    have hsupplied : ∀ {α : Type} (get : Observation → Option α),
        get .unknown = none →
          lastSupplied? get (os ++ [.unknown]) = lastSupplied? get os := by
      intro α get hunknown
      rw [lastSupplied?_concat get Observation.noConfusion, hunknown, Option.none_or]
    show ofHistory os = ofHistory (os ++ [.unknown])
    unfold ofHistory
    rw [lastTelling?_concat_unknown, hsupplied _ rfl, hsupplied _ rfl]
  | missing =>
    unfold ofHistory
    rw [lastTelling?_concat Observation.noConfusion, lastSupplied?_concat_missing,
      lastSupplied?_concat_missing]
    rfl
  | present size modified =>
    unfold ofHistory
    rw [lastTelling?_concat Observation.noConfusion,
      lastSupplied?_concat _ Observation.noConfusion,
      lastSupplied?_concat _ Observation.noConfusion]
    rfl

/-- Recording observations comes to their history. -/
theorem after_fresh (os : List Observation) : fresh.after os = ofHistory os := by
  induction os using List.reverseRecOn with
  | nil => rfl
  | append_singleton os o ih => rw [after_concat, ih, record_ofHistory]

/-- A file that is not there has no attributes. -/
theorem ofHistory_of_absent {os : List Observation} (h : (ofHistory os).exists? = false) :
    (ofHistory os).size = none ∧ (ofHistory os).modified = none := by
  have habsent : ∀ last, lastTelling? os = some last → last.isPresent = false := by
    intro last hlast
    have hexists : (lastTelling? os).any Observation.isPresent = false := h
    rw [hlast] at hexists
    exact hexists
  exact ⟨lastSupplied?_of_absent _ rfl habsent, lastSupplied?_of_absent _ rfl habsent⟩

/-! ### What shows a change -/

theorem differs_iff {α : Type} [DecidableEq α] {before now : Option α} :
    differs before now = true ↔ ∃ a b, before = some a ∧ now = some b ∧ a ≠ b := by
  unfold differs
  cases before with
  | none => simp
  | some a =>
    cases now with
    | none => simp
    | some b => simp

/-- An observation shows a change when it tells of another state than the latest one that told
anything, or supplies another value than the latest one supplied. -/
theorem changed_iff (os : List Observation) (o : Observation) :
    ((ofHistory os).record o).1 = true ↔
      o ≠ .unknown ∧ ∃ last, lastTelling? os = some last ∧
        (o.isPresent ≠ last.isPresent
          ∨ o.isPresent = true ∧ last.isPresent = true
            ∧ (Supersedes Observation.size? os o ∨ Supersedes Observation.modified? os o)) := by
  have hsampled : (ofHistory os).sampled = (lastTelling? os).isSome := rfl
  have hexists : (ofHistory os).exists? = (lastTelling? os).any Observation.isPresent := rfl
  cases o with
  | unknown => simp [record]
  | missing =>
    unfold record
    rw [hsampled, hexists]
    cases hlast : lastTelling? os with
    | none => simp
    | some last => simp [Observation.isPresent]
  | present size modified =>
    have hsize : differs (ofHistory os).size size = true ↔
        Supersedes Observation.size? os (.present size modified) := differs_iff
    have hmodified : differs (ofHistory os).modified modified = true ↔
        Supersedes Observation.modified? os (.present size modified) := differs_iff
    unfold record
    rw [hsampled, hexists]
    cases hlast : lastTelling? os with
    | none => simp
    | some last =>
      simp only [Option.isSome_some, Option.any_some, Bool.true_and, Bool.or_eq_true, hsize,
        hmodified]
      cases hpresent : last.isPresent with
      | false => simp [hpresent]
      | true => simp [hpresent]

/-! ### One observation after the other -/

theorem recordAll_append (s : Signature) (os os' : List Observation) :
    s.recordAll (os ++ os') = s.recordAll os ++ (s.after os).recordAll os' := by
  induction os generalizing s with
  | nil => rfl
  | cons o os ih =>
    rw [List.cons_append, recordAll, ih]
    rfl

theorem length_recordAll (s : Signature) (os : List Observation) :
    (s.recordAll os).length = os.length := by
  induction os generalizing s with
  | nil => rfl
  | cons o os ih => rw [recordAll, List.length_cons, ih, List.length_cons]

/-- An observation is recorded in the signature that the ones before it have left. -/
theorem getElem?_recordAll (s : Signature) (earlier : List Observation) (o : Observation)
    (later : List Observation) :
    (s.recordAll (earlier ++ o :: later))[earlier.length]? = some ((s.after earlier).record o) := by
  have hearlier := s.length_recordAll earlier
  rw [recordAll_append, List.getElem?_append_right (by omega), hearlier, Nat.sub_self]
  rfl

/-- What is recorded of the telling observations does not depend on the others. -/
theorem recordAll_of_telling (s : Signature) (os : List Observation) :
    ((os.zip (s.recordAll os)).filter fun x => x.1.tells).map Prod.snd =
      s.recordAll (os.filter Observation.tells) := by
  induction os generalizing s with
  | nil => rfl
  | cons o os ih =>
    rw [recordAll, List.zip_cons_cons, List.filter_cons, List.filter_cons]
    by_cases ho : o.tells = true
    · rw [if_pos ho, if_pos ho, List.map_cons, ih, recordAll]
    · obtain rfl : o = .unknown := by simpa [Observation.tells] using ho
      rw [if_neg ho, if_neg ho, ih]
      rfl

theorem after_of_telling (s : Signature) (os : List Observation) :
    s.after os = s.after (os.filter Observation.tells) := by
  induction os using List.reverseRecOn with
  | nil => rfl
  | append_singleton os o ih =>
    rw [after_concat, ih, List.filter_append]
    by_cases ho : o.tells = true
    · rw [List.filter_cons_of_pos ho, List.filter_nil, after_concat]
    · obtain rfl : o = .unknown := by simpa [Observation.tells] using ho
      rw [List.filter_cons_of_neg ho, List.filter_nil, List.append_nil]
      rfl

/-- **A change is reported exactly when it happens.** Of a file that was never looked at before, an
observation shows a change if it tells anything, an earlier one did, and either the latest of these
differs from it on whether the file is there, or both found the file and it supplies an attribute
that differs from the latest value supplied since the file was last missing. These latest values are
what the signature keeps, and none while the file is missing. Observations that tell nothing change
neither what is recorded of the others nor the signature in the end. -/
theorem change_reported_iff :
    (∀ (earlier : List Observation) (o : Observation) (later : List Observation),
      ∃ (changed : Bool) (s : Signature),
        (fresh.recordAll (earlier ++ o :: later))[earlier.length]? = some (changed, s)
          ∧ s = fresh.after (earlier ++ [o])
          ∧ (changed = true ↔
              o ≠ .unknown ∧ ∃ last, lastTelling? earlier = some last ∧
                (o.isPresent ≠ last.isPresent
                  ∨ o.isPresent = true ∧ last.isPresent = true
                    ∧ (Supersedes Observation.size? earlier o
                      ∨ Supersedes Observation.modified? earlier o))))
      ∧ (∀ os : List Observation,
        (fresh.after os).exists? = (lastTelling? os).any Observation.isPresent
          ∧ (fresh.after os).sampled = (lastTelling? os).isSome
          ∧ (fresh.after os).size = lastSupplied? Observation.size? os
          ∧ (fresh.after os).modified = lastSupplied? Observation.modified? os
          ∧ ((fresh.after os).exists? = false →
              (fresh.after os).size = none ∧ (fresh.after os).modified = none))
      ∧ ∀ os : List Observation,
        ((os.zip (fresh.recordAll os)).filter fun x => x.1.tells).map Prod.snd =
            fresh.recordAll (os.filter Observation.tells)
          ∧ fresh.after os = fresh.after (os.filter Observation.tells) := by
  refine ⟨fun earlier o later => ?_, fun os => ?_, fun os => ?_⟩
  · have hchanged := changed_iff earlier o
    rw [← after_fresh] at hchanged
    refine ⟨((fresh.after earlier).record o).1, ((fresh.after earlier).record o).2,
      fresh.getElem?_recordAll earlier o later, ?_, hchanged⟩
    rw [after_concat]
  · rw [after_fresh]
    exact ⟨rfl, rfl, rfl, rfl, ofHistory_of_absent⟩
  · exact ⟨fresh.recordAll_of_telling os, fresh.after_of_telling os⟩

/-- A value that comes back after the file was missing is no other value. -/
example :
    (fresh.recordAll [.present (some 4) none, .unknown, .missing, .present none none,
        .present (some 5) none, .present (some 5) none, .present (some 6) none]).map Prod.fst =
      [false, false, true, true, false, false, true] := by
  decide

end Signature

end FileWatch

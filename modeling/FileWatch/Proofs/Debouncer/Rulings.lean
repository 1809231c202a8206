import FileWatch.Debouncer
import Mathlib.Data.List.Induction

/-! # Rulings — what a debouncer decides along a sequence of offers

A `Ruling` is an offer with the decision on it. `lastModified?` says from the rulings alone when the
latest modification of a path was admitted: it knows of no debouncer. It finds the one ruling on the
path that later ones let stand (`exists_of_lastModified?`). `rulings` are what a debouncer decides,
one offer after the other, by whichever procedure.
-/

namespace FileWatch

/-- A notification that is offered at a time. -/
structure Offer where
  notification : Notification
  time : Nat
  deriving DecidableEq, Repr

/-- What the path of the notification is made of. -/
def Offer.key (o : Offer) : List Component := o.notification.path.components

/-- An offer and the decision on it. -/
structure Ruling extends Offer where
  admitted : Bool
  deriving DecidableEq, Repr

namespace Ruling

/-- Whether a modification was admitted. -/
def admitsModification (r : Ruling) : Bool := r.notification.kind == .modified && r.admitted

/-- Whether a modification was admitted and stands through later rulings: since then its path has
kept its names and had no other modification admitted. -/
def StandsThrough (r : Ruling) (later : List Ruling) : Prop :=
  r.admitsModification = true
    ∧ ∀ b ∈ later, b.key = r.key → b.notification.kind = .modified ∧ b.admitted = false

/-- When the latest modification of a path was admitted, by what was known before the ruling. -/
def update (key : List Component) (last : Option Nat) (r : Ruling) : Option Nat :=
  if r.key ≠ key then last
  else if r.notification.kind ≠ .modified then none
  else if r.admitted then some r.time else last

variable {key : List Component} {last : Option Nat} {r : Ruling}

theorem update_of_ne (h : r.key ≠ key) : r.update key last = last := if_pos h

theorem update_of_nameChange (h : r.key = key) (hkind : r.notification.kind ≠ .modified) :
    r.update key last = none := by
  rw [update, if_neg (not_not_intro h), if_pos hkind]

theorem update_of_admitted (h : r.key = key) (hadmits : r.admitsModification = true) :
    r.update key last = some r.time := by
  obtain ⟨hkind, hadmitted⟩ := Bool.and_eq_true_iff.mp hadmits
  rw [update, if_neg (not_not_intro h), if_neg (not_not_intro (eq_of_beq hkind)), if_pos hadmitted]

theorem update_of_refused (h : r.admitted = false) (hkind : r.notification.kind = .modified) :
    r.update key last = last := by
  simp [update, h, hkind]

/-- What is known after a ruling is the ruling itself, or was known and is let stand by it. -/
theorem of_update_eq_some {time : Nat} (h : r.update key last = some time) :
    (r.admitsModification = true ∧ r.key = key ∧ r.time = time)
      ∨ (last = some time
        ∧ (r.key = key → r.notification.kind = .modified ∧ r.admitted = false)) := by
  by_cases hkey : r.key = key
  · by_cases hkind : r.notification.kind = .modified
    · cases hadmitted : r.admitted with
      | true =>
        have hadmits : r.admitsModification = true := by
          simp [admitsModification, hkind, hadmitted]
        rw [update_of_admitted hkey hadmits] at h
        exact .inl ⟨hadmits, hkey, Option.some.inj h⟩
      | false =>
        rw [update_of_refused hadmitted hkind] at h
        exact .inr ⟨h, fun _ => ⟨hkind, rfl⟩⟩
    · rw [update_of_nameChange hkey hkind] at h
      cases h
  · rw [update_of_ne hkey] at h
    exact .inr ⟨h, fun h' => absurd h' hkey⟩

theorem standsThrough_nil : r.StandsThrough [] ↔ r.admitsModification = true := by
  simp [StandsThrough]

theorem standsThrough_concat {later : List Ruling} {b : Ruling} :
    r.StandsThrough (later ++ [b]) ↔ r.StandsThrough later
      ∧ (b.key = r.key → b.notification.kind = .modified ∧ b.admitted = false) := by
  simp only [StandsThrough, List.forall_mem_append, List.forall_mem_singleton, and_assoc]

end Ruling

/-- When the latest modification of a path was admitted, unless its names changed since. -/
def lastModified? (key : List Component) (rulings : List Ruling) : Option Nat :=
  rulings.foldl (Ruling.update key) none

@[simp] theorem lastModified?_nil (key : List Component) : lastModified? key [] = none := rfl

@[simp] theorem lastModified?_concat (key : List Component) (rulings : List Ruling) (r : Ruling) :
    lastModified? key (rulings ++ [r]) = r.update key (lastModified? key rulings) := by
  simp [lastModified?]

/-- The latest admitted modification of a path is one that stands through all later rulings. -/
theorem exists_of_lastModified? {key : List Component} {rulings : List Ruling} {time : Nat}
    (h : lastModified? key rulings = some time) :
    ∃ past r later, rulings = past ++ r :: later ∧ r.StandsThrough later ∧ r.key = key
      ∧ r.time = time := by
  induction rulings using List.reverseRecOn with
  | nil => cases h
  | append_singleton rulings b ih =>
    rw [lastModified?_concat] at h
    rcases Ruling.of_update_eq_some h with ⟨hadmits, hkey, htime⟩ | ⟨hlast, hstill⟩
    · exact ⟨rulings, b, [], rfl, Ruling.standsThrough_nil.mpr hadmits, hkey, htime⟩
    · obtain ⟨past, r, later, rfl, hstands, rfl, htime⟩ := ih hlast
      refine ⟨past, r, later ++ [b], by simp, ?_, rfl, htime⟩
      exact Ruling.standsThrough_concat.mpr ⟨hstands, hstill⟩

/-- The rulings on other paths do not matter. -/
theorem lastModified?_filter (key : List Component) (rulings : List Ruling) :
    lastModified? key (rulings.filter fun r => r.key == key) = lastModified? key rulings := by
  induction rulings using List.reverseRecOn with
  | nil => rfl
  | append_singleton rulings r ih =>
    rw [List.filter_append, lastModified?_concat]
    by_cases hr : r.key = key
    · rw [List.filter_cons_of_pos (by simpa using hr), List.filter_nil, lastModified?_concat, ih]
    · rw [List.filter_cons_of_neg (by simpa using hr), List.filter_nil, List.append_nil, ih,
        Ruling.update_of_ne hr]

/-- After an admitted modification of a path that keeps its names, the latest one is that or a later
one. -/
theorem lastModified?_of_admitted (past : List Ruling) {between : List Ruling} {r : Ruling}
    (hr : r.admitsModification = true)
    (hbetween : ∀ b ∈ between, b.key = r.key → b.notification.kind = .modified) :
    ∃ r' ∈ r :: between, lastModified? r.key (past ++ r :: between) = some r'.time := by
  induction between using List.reverseRecOn with
  | nil => exact ⟨r, by simp, by rw [lastModified?_concat, Ruling.update_of_admitted rfl hr]⟩
  | append_singleton between b ih =>
    obtain ⟨r', hr', hlast⟩ := ih fun b' hb' => hbetween b' (List.mem_append_left [b] hb')
    have hmem : ∀ {x}, x ∈ r :: between → x ∈ r :: (between ++ [b]) := fun hx =>
      List.mem_append_left [b] hx
    rw [← List.cons_append, ← List.append_assoc, lastModified?_concat, hlast]
    by_cases hkey : b.key = r.key
    · have hkind := hbetween b (by simp) hkey
      cases hadmitted : b.admitted with
      | false => exact ⟨r', hmem hr', Ruling.update_of_refused hadmitted hkind⟩
      | true =>
        have hadmits : b.admitsModification = true := by
          simp [Ruling.admitsModification, hkind, hadmitted]
        exact ⟨b, by simp, Ruling.update_of_admitted hkey hadmits⟩
    · exact ⟨r', hmem hr', Ruling.update_of_ne hkey⟩

namespace Debouncer

/-! ### Running through offers -/

section Run

variable (f : Debouncer → Notification → Nat → Bool × Debouncer) (d : Debouncer)

/-- The ruling on an offer. -/
def ruling (o : Offer) : Ruling := ⟨o, (f d o.notification o.time).1⟩

/-- The debouncer after an offer. -/
def next (o : Offer) : Debouncer := (f d o.notification o.time).2

/-- The rulings on one offer after the other. -/
def rulings (d : Debouncer) : List Offer → List Ruling
  | [] => []
  | o :: os => ruling f d o :: rulings (next f d o) os

/-- The debouncer after one offer after the other. -/
def after (os : List Offer) : Debouncer := os.foldl (next f) d

@[simp] theorem after_concat (os : List Offer) (o : Offer) :
    after f d (os ++ [o]) = next f (after f d os) o := by
  simp [after]

@[simp] theorem rulings_concat (os : List Offer) (o : Offer) :
    rulings f d (os ++ [o]) = rulings f d os ++ [ruling f (after f d os) o] := by
  induction os generalizing d with
  | nil => rfl
  | cons o' os ih =>
    rw [List.cons_append, rulings, ih]
    rfl

theorem map_toOffer_rulings (os : List Offer) : (rulings f d os).map Ruling.toOffer = os := by
  induction os generalizing d with
  | nil => rfl
  | cons o os ih =>
    rw [rulings, List.map_cons, ih]
    rfl

/-- A ruling is made by the debouncer as the offers before it have left it. -/
theorem rulings_eq_append_cons {os : List Offer} {past rest : List Ruling} {r : Ruling}
    (h : rulings f d os = past ++ r :: rest) :
    ∃ before o later, os = before ++ o :: later ∧ past = rulings f d before
      ∧ r = ruling f (after f d before) o := by
  induction past generalizing d os with
  | nil =>
    cases os with
    | nil => cases h
    | cons o os => exact ⟨[], o, os, rfl, rfl, (List.cons_eq_cons.mp h).1.symm⟩
  | cons r' past ih =>
    cases os with
    | nil => cases h
    | cons o os =>
      obtain ⟨rfl, hrest⟩ := List.cons_eq_cons.mp h
      obtain ⟨before, o', later, rfl, rfl, rfl⟩ := ih _ hrest
      exact ⟨o :: before, o', later, rfl, rfl, rfl⟩

end Run

end Debouncer

end FileWatch

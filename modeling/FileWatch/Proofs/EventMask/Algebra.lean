import FileWatch.EventMask

/-! # Algebra — masks as sets of bits

Masks are ordered by `contains`, unions are least upper bounds (`contains_or`, `contains_foldl`),
and sharing a bit is monotone and goes into unions (`intersects_or`, `intersects_foldl`). So the
union of some flags depends on which of them there are, and not on their order or number
(`foldl_congr`).
-/

namespace FileWatch.EventMask

variable {a b c : EventMask}

/-! ### Unions and common parts -/

theorem or_empty (a : EventMask) : a ||| empty = a := ext BitVec.or_zero

theorem empty_or (a : EventMask) : empty ||| a = a := ext BitVec.zero_or

theorem or_assoc (a b c : EventMask) : a ||| b ||| c = a ||| (b ||| c) := ext (BitVec.or_assoc ..)

theorem and_empty (a : EventMask) : a &&& empty = empty := ext BitVec.and_zero

theorem and_and_self (a b : EventMask) : a &&& b &&& b = a &&& b :=
  ext (by rw [bits_and, bits_and, BitVec.and_assoc, BitVec.and_self])

theorem and_or_distrib (a b c : EventMask) : a &&& (b ||| c) = (a &&& b) ||| (a &&& c) :=
  ext (BitVec.and_or_distrib_left ..)

/-- What a mask shares with one class is the class or nothing. -/
theorem and_single (a : EventMask) (c : EventClass) :
    a &&& single c = if a.contains (single c) then single c else empty := by
  by_cases h : a.contains (single c) = true
  · rw [if_pos h]
    exact eq_of_beq h
  · rw [if_neg h]
    have hbits : (a &&& single c).bits = a.bits &&& BitVec.twoPow 32 c.position := rfl
    rw [BitVec.and_twoPow] at hbits
    split at hbits
    · exact absurd (beq_iff_eq.mpr (ext hbits)) h
    · exact ext hbits

theorem known_or_rest (a : EventMask) : a.known ||| (a \ all) = a := by
  apply ext
  show a.bits &&& all.bits ||| a.bits &&& ~~~all.bits = a.bits
  rw [← BitVec.and_or_distrib_left, BitVec.or_not_self, BitVec.and_allOnes]

/-! ### Masks that are in others -/

theorem contains_iff : a.contains b = true ↔ a.bits &&& b.bits = b.bits := by
  rw [contains, beq_iff_eq]
  constructor
  · intro h
    exact congrArg bits h
  · intro h
    exact ext h

theorem contains_self (a : EventMask) : a.contains a = true := contains_iff.mpr BitVec.and_self

theorem contains_empty (a : EventMask) : a.contains empty = true :=
  contains_iff.mpr BitVec.and_zero

theorem contains_trans (hab : a.contains b = true) (hbc : b.contains c = true) :
    a.contains c = true := by
  rw [contains_iff] at hab hbc ⊢
  rw [← hbc, ← BitVec.and_assoc, hab]

theorem contains_antisymm (hab : a.contains b = true) (hba : b.contains a = true) : a = b := by
  rw [contains_iff] at hab hba
  rw [BitVec.and_comm] at hba
  exact ext (hba.symm.trans hab)

theorem or_contains_left (a b : EventMask) : (a ||| b).contains a = true := by
  rw [contains_iff, bits_or]
  apply BitVec.eq_of_getLsbD_eq
  intro i _
  rw [BitVec.getLsbD_and, BitVec.getLsbD_or]
  cases a.bits.getLsbD i <;> simp

theorem or_contains_right (a b : EventMask) : (a ||| b).contains b = true := by
  have hcomm : a ||| b = b ||| a := ext (BitVec.or_comm ..)
  rw [hcomm]
  exact or_contains_left b a

/-- A union is in the masks that its parts are in. -/
theorem contains_or : c.contains (a ||| b) = true ↔ c.contains a = true ∧ c.contains b = true := by
  constructor
  · intro h
    exact ⟨contains_trans h (or_contains_left a b), contains_trans h (or_contains_right a b)⟩
  · rintro ⟨ha, hb⟩
    rw [contains_iff] at ha hb ⊢
    rw [bits_or, BitVec.and_or_distrib_left, ha, hb]

/-- The union of flags and a mask is in the masks that all of them are in. -/
theorem contains_foldl (fs : List EventMask) (m : EventMask) :
    c.contains (fs.foldl (· ||| ·) m) = true ↔
      c.contains m = true ∧ ∀ f ∈ fs, c.contains f = true := by
  induction fs generalizing m with
  | nil => simp
  | cons f fs ih =>
    rw [List.foldl_cons, ih, contains_or, List.forall_mem_cons, and_assoc]

/-- Nothing is left of a mask without those that it is in. -/
theorem sdiff_eq_empty (h : c.contains a = true) : a \ c = empty := by
  rw [contains_iff] at h
  apply ext
  rw [bits_sdiff, ← h, BitVec.and_comm c.bits, BitVec.and_assoc, BitVec.and_not_self]
  exact BitVec.and_zero

/-- The union of flags goes by which there are, if they are not empty. -/
theorem foldl_congr {fs gs : List EventMask} (h : ∀ f, f ≠ empty → (f ∈ fs ↔ f ∈ gs)) :
    fs.foldl (· ||| ·) empty = gs.foldl (· ||| ·) empty := by
  have hin {fs gs : List EventMask} (h : ∀ f, f ≠ empty → f ∈ fs → f ∈ gs) :
      (gs.foldl (· ||| ·) empty).contains (fs.foldl (· ||| ·) empty) = true := by
    rw [contains_foldl]
    refine ⟨contains_empty _, fun f hf => ?_⟩
    by_cases hempty : f = empty
    · rw [hempty]
      exact contains_empty _
    · exact ((contains_foldl gs empty).mp (contains_self _)).2 f (h f hempty hf)
  exact contains_antisymm (hin fun f hf => (h f hf).mpr) (hin fun f hf => (h f hf).mp)

/-- A part of the union can be taken out in front. -/
theorem foldl_or (fs : List EventMask) (m : EventMask) :
    fs.foldl (· ||| ·) m = m ||| fs.foldl (· ||| ·) empty := by
  induction fs generalizing m with
  | nil => exact (or_empty m).symm
  | cons f fs ih => rw [List.foldl_cons, List.foldl_cons, ih (m ||| f), ih (empty ||| f), empty_or,
      or_assoc]

/-! ### Masks that share a bit -/

theorem intersects_iff : a.intersects b = true ↔ a.bits &&& b.bits ≠ 0 := by
  rw [intersects, bits_and]
  exact bne_iff_ne

theorem intersects_comm (a b : EventMask) : a.intersects b = b.intersects a := by
  rw [intersects, intersects, bits_and, bits_and, BitVec.and_comm]

theorem intersects_or (a b c : EventMask) :
    (a ||| b).intersects c = (a.intersects c || b.intersects c) := by
  have hunion : (a.bits ||| b.bits) &&& c.bits = 0 ↔
      a.bits &&& c.bits = 0 ∧ b.bits &&& c.bits = 0 := by
    rw [BitVec.and_or_distrib_right]
    exact BitVec.or_eq_zero_iff
  rw [Bool.eq_iff_iff, Bool.or_eq_true, intersects_iff, intersects_iff, intersects_iff, bits_or,
    ne_eq, hunion, Classical.not_and_iff_not_or_not]

/-- The union of flags shares what one of them shares. -/
theorem intersects_foldl (fs : List EventMask) (m : EventMask) :
    (fs.foldl (· ||| ·) m).intersects c = (m.intersects c || fs.any fun f => f.intersects c) := by
  induction fs generalizing m with
  | nil => simp
  | cons f fs ih => rw [List.foldl_cons, ih, intersects_or, List.any_cons, Bool.or_assoc]

/-- A mask that shares a bit with a part of another one shares it with that one. -/
theorem intersects_mono (h : a.intersects b = true) (hcb : c.contains b = true) :
    a.intersects c = true := by
  rw [intersects_iff] at h ⊢
  rw [contains_iff] at hcb
  intro hac
  apply h
  rw [← hcb, ← BitVec.and_assoc, hac]
  exact BitVec.zero_and

/-- A mask shares with others what a part of it shares with them. -/
theorem intersects_of_contains (hab : a.contains b = true) (hbc : b.intersects c = true) :
    a.intersects c = true := by
  rw [intersects_comm] at hbc ⊢
  exact intersects_mono hbc hab

/-- What is not shared with a mask is not shared with a part of it. -/
theorem intersects_eq_false (hac : a.intersects c = false) (hcb : c.contains b = true) :
    a.intersects b = false := by
  rw [Bool.eq_false_iff] at hac ⊢
  exact fun hab => hac (intersects_mono hab hcb)

/-- What the common part of two masks shares with a third one, each of them does. -/
theorem intersects_right_of_and (h : (a &&& b).intersects c = true) : b.intersects c = true := by
  rw [intersects_iff, bits_and] at h
  rw [intersects_iff]
  intro hbc
  apply h
  rw [BitVec.and_assoc, hbc]
  exact BitVec.and_zero

/-- Bits that stand for no class are not shared with classes. -/
theorem intersects_known (h : all.contains c = true) : a.known.intersects c = a.intersects c := by
  rw [contains_iff] at h
  rw [intersects, intersects, known, bits_and, bits_and, bits_and, BitVec.and_assoc, h]

end FileWatch.EventMask

import FileWatch.Text.Blank

/-! # Trimming — what a text trims to

A text is what it trims to with blanks around it (`exists_trim`). Changing letters that are no
blanks, such as to upper case, can be done before or after (`trim_map`).
-/

namespace FileWatch.Text

/-- A text is what it trims to, with blanks around it. -/
theorem exists_trim (s : List Char) : ∃ left right, s = left ++ trim s ++ right
    ∧ (∀ c ∈ left, isBlank c = true) ∧ ∀ c ∈ right, isBlank c = true := by
  have hleft : s.takeWhile isBlank ++ s.dropWhile isBlank = s := List.takeWhile_append_dropWhile
  have hright : (s.dropWhile isBlank) =
      trim s ++ ((s.dropWhile isBlank).reverse.takeWhile isBlank).reverse := by
    rw [trim, trimEnd, ← List.reverse_append, List.takeWhile_append_dropWhile, List.reverse_reverse]
  refine ⟨s.takeWhile isBlank, ((s.dropWhile isBlank).reverse.takeWhile isBlank).reverse, ?_,
    fun c hc => ?_, fun c hc => ?_⟩
  · rw [List.append_assoc, ← hright, hleft]
  · exact List.all_eq_true.mp List.all_takeWhile c hc
  · exact List.all_eq_true.mp List.all_takeWhile c (List.mem_reverse.mp hc)

/-- What is trimmed off is blank. -/
theorem mem_trim_or_blank {s : List Char} {c : Char} (hc : c ∈ s) :
    c ∈ trim s ∨ isBlank c = true := by
  obtain ⟨left, right, hs, hleft, hright⟩ := exists_trim s
  rw [hs, List.mem_append, List.mem_append] at hc
  rcases hc with (hc | hc) | hc
  · exact .inr (hleft c hc)
  · exact .inl hc
  · exact .inr (hright c hc)

theorem trim_map {f : Char → Char} (hf : ∀ c, isBlank (f c) = isBlank c) (s : List Char) :
    trim (s.map f) = (trim s).map f := by
  have hblank : isBlank ∘ f = isBlank := funext hf
  rw [trim, trimEnd, trim, trimEnd, List.dropWhile_map, hblank, ← List.map_reverse,
    List.dropWhile_map, hblank, ← List.map_reverse]

/-! ### Upper case -/

/-- Only the lower letters of ASCII change in upper case. -/
theorem toUpper_cases (c : Char) :
    c.toUpper = c ∨ (97 ≤ c.toNat ∧ c.toNat ≤ 122) ∧ c.toUpper.toNat = c.toNat - 32 := by
  unfold Char.toUpper
  by_cases h : 'a'.val ≤ c.val ∧ c.val ≤ 'z'.val
  · right
    have hlow : 97 ≤ c.toNat := h.1
    have hhigh : c.toNat ≤ 122 := h.2
    refine ⟨⟨hlow, hhigh⟩, ?_⟩
    rw [dif_pos h]
    -- 'A' comes 32 before 'a', and the difference wraps
    have hdown : ('A'.val - 'a'.val : UInt32).toNat = 4294967264 := by decide
    have hval : c.toNat = c.val.toNat := rfl
    show (c.val + ('A'.val - 'a'.val)).toNat = c.toNat - 32
    rw [UInt32.toNat_add, hdown]
    omega
  · exact .inl (dif_neg h)

theorem isBlank_toUpper (c : Char) : isBlank c.toUpper = isBlank c := by
  rcases toUpper_cases c with h | ⟨hletter, h⟩
  · rw [h]
  · have hlower : isBlank c = false := by
      simp [isBlank]
      omega
    have hupper : isBlank c.toUpper = false := by
      simp [isBlank, h]
      omega
    rw [hlower, hupper]

theorem toUpper_toUpper (c : Char) : c.toUpper.toUpper = c.toUpper := by
  rcases toUpper_cases c with h | ⟨hletter, h⟩
  · rw [h, h]
  · -- an upper letter is no lower one
    exact (toUpper_cases c.toUpper).resolve_right fun hupper => by omega

/-- A character that is no letter of ASCII comes from itself alone. -/
theorem toUpper_eq_iff {c d : Char}
    (hd : d.toNat < 65 ∨ 90 < d.toNat ∧ d.toNat < 97 ∨ 122 < d.toNat) :
    c.toUpper = d ↔ c = d := by
  rcases toUpper_cases c with h | ⟨hletter, h⟩
  · rw [h]
  · constructor
    · rintro rfl
      omega
    · rintro rfl
      omega

end FileWatch.Text

/-! # Blank — white space and trimming

`isBlank` is the Unicode property White_Space and `trim` drops it at both ends of a text. Main
statements: a trimmed text is a stretch of the text it came from (`trim_sublist`), a text trims to
nothing just when it is blank throughout (`trim_eq_nil_iff`), and blanks around a text do not change
what it trims to (`trim_append`).
-/

namespace FileWatch.Text

/-- The characters of the Unicode property White_Space. -/
def isBlank (c : Char) : Bool :=
  let n := c.toNat
  (9 ≤ n && n ≤ 13) || n == 0x20 || n == 0x85 || n == 0xA0 || n == 0x1680
    || (0x2000 ≤ n && n ≤ 0x200A) || n == 0x2028 || n == 0x2029 || n == 0x202F
    || n == 0x205F || n == 0x3000

/-- Drops the blanks at the end. -/
def trimEnd (s : List Char) : List Char := (s.reverse.dropWhile isBlank).reverse

/-- Drops the blanks at both ends. -/
def trim (s : List Char) : List Char := trimEnd (s.dropWhile isBlank)

theorem dropWhile_eq_nil_iff (p : Char → Bool) (s : List Char) :
    s.dropWhile p = [] ↔ ∀ c ∈ s, p c = true := by
  induction s with
  | nil => simp
  | cons c s ih => by_cases h : p c = true <;> simp [h, ih]

theorem trimEnd_sublist (s : List Char) : (trimEnd s).Sublist s := by
  have h := (List.dropWhile_sublist isBlank (l := s.reverse)).reverse
  simpa [trimEnd] using h

/-- Trimming only drops characters. -/
theorem trim_sublist (s : List Char) : (trim s).Sublist s :=
  (trimEnd_sublist _).trans (List.dropWhile_sublist isBlank)

theorem trimEnd_eq_nil_iff (s : List Char) : trimEnd s = [] ↔ ∀ c ∈ s, isBlank c = true := by
  rw [trimEnd, List.reverse_eq_nil_iff, dropWhile_eq_nil_iff]
  simp only [List.mem_reverse]

/-- Exactly the blank texts trim to nothing. -/
theorem trim_eq_nil_iff (s : List Char) : trim s = [] ↔ ∀ c ∈ s, isBlank c = true := by
  rw [trim, trimEnd_eq_nil_iff]
  induction s with
  | nil => simp
  | cons c s ih => by_cases h : isBlank c = true <;> simp [h, ih]

theorem trimEnd_append {right : List Char} (hright : ∀ c ∈ right, isBlank c = true)
    (s : List Char) : trimEnd (s ++ right) = trimEnd s := by
  have hreverse : ∀ c ∈ right.reverse, isBlank c = true := fun c hc =>
    hright c (List.mem_reverse.mp hc)
  rw [trimEnd, List.reverse_append, List.dropWhile_append_of_pos hreverse, trimEnd]

/-- Blanks around a text are trimmed with its own. -/
theorem trim_append {left right : List Char} (hleft : ∀ c ∈ left, isBlank c = true)
    (hright : ∀ c ∈ right, isBlank c = true) (s : List Char) :
    trim (left ++ s ++ right) = trim s := by
  rw [List.append_assoc, trim, List.dropWhile_append_of_pos hleft, List.dropWhile_append, trim]
  split
  · rename_i hblank
    rw [List.isEmpty_iff.mp hblank, (dropWhile_eq_nil_iff isBlank right).mpr hright]
  · exact trimEnd_append hright _

/-- A text without blanks has nothing to trim. -/
theorem trim_of_no_blank {s : List Char} (h : ∀ c ∈ s, isBlank c = false) : trim s = s := by
  have hkept : ∀ t : List Char, (∀ c ∈ t, isBlank c = false) → t.dropWhile isBlank = t := by
    intro t ht
    cases t with
    | nil => rfl
    | cons c t => rw [List.dropWhile_cons, if_neg (by simp [ht c])]
  rw [trim, hkept s h, trimEnd, hkept s.reverse fun c hc => h c (List.mem_reverse.mp hc),
    List.reverse_reverse]

end FileWatch.Text

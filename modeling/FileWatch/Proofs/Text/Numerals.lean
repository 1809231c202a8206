import FileWatch.Text.Hexadecimal
import FileWatch.Toml.Lexeme
import Mathlib.Tactic.IntervalCases

/-! # Numerals — numbers that are written read back

A number is written with `Nat.toDigits`, highest digit first. What holds of a single digit and of a
numeral with one more digit behind it holds of all of them (`toDigits_induction`); so the digits of
a number spell the number in base sixteen (`hexNumber?_hexDigits`) and, before a character that is
no part of a number, in a document (`integer?_toDigits`).
-/

namespace FileWatch.Text

/-- What holds of the characters of a text one by one. It is decided along the text: there are
finitely many characters, so it could also be decided by going through all of them, and that takes
too long. -/
theorem forall_mem_of_all {P : Char → Prop} [DecidablePred P] {s : List Char}
    (h : s.all (fun c => decide (P c)) = true) : ∀ c ∈ s, P c := by
  simpa using h

/-- Induction along the digits of a number, highest first. -/
theorem toDigits_induction {b : Nat} (hb : 1 < b) {motive : Nat → List Char → Prop}
    (single : ∀ d < b, motive d [Nat.digitChar d])
    (snoc : ∀ n d, 0 < n → d < b → motive n (Nat.toDigits b n) →
      motive (n * b + d) (Nat.toDigits b n ++ [Nat.digitChar d]))
    (n : Nat) : motive n (Nat.toDigits b n) := by
  induction n using Nat.strongRecOn with
  | _ n ih =>
    rcases Nat.lt_or_ge n b with hlt | hle
    · rw [Nat.toDigits_of_lt_base hlt]
      exact single n hlt
    · rw [Nat.toDigits_of_base_le hb hle]
      have hpos : 0 < n / b := Nat.div_pos hle (by omega)
      have hsnoc := snoc (n / b) (n % b) hpos (Nat.mod_lt n (by omega))
        (ih (n / b) (Nat.div_lt_self (by omega) hb))
      rwa [Nat.mul_comm, Nat.div_add_mod] at hsnoc

/-- Every character of a numeral is a digit. -/
theorem exists_digitChar_of_mem {b n : Nat} (hb : 1 < b) {c : Char}
    (h : c ∈ Nat.toDigits b n) : ∃ d < b, c = Nat.digitChar d := by
  revert h
  refine toDigits_induction hb (motive := fun _ s => c ∈ s → ∃ d < b, c = Nat.digitChar d)
    (fun d hd h => ⟨d, hd, List.mem_singleton.mp h⟩) (fun n d _ hd ih h => ?_) n
  rcases List.mem_append.mp h with h | h
  · exact ih h
  · exact ⟨d, hd, List.mem_singleton.mp h⟩

/-- A numeral begins with a digit, and that of a positive number not with zero. -/
theorem toDigits_eq_cons {b : Nat} (hb : 1 < b) (n : Nat) :
    ∃ d rest, d < b ∧ (0 < n → 0 < d) ∧ Nat.toDigits b n = Nat.digitChar d :: rest := by
  refine toDigits_induction hb
    (motive := fun n s => ∃ d rest, d < b ∧ (0 < n → 0 < d) ∧ s = Nat.digitChar d :: rest)
    (fun d hd => ⟨d, [], hd, id, rfl⟩) (fun n d hn _ ih => ?_) n
  obtain ⟨first, rest, hlt, hpos, hdigits⟩ := ih
  exact ⟨first, rest ++ [Nat.digitChar d], hlt, fun _ => hpos hn, by
    rw [hdigits, List.cons_append]⟩

/-! ### Base sixteen -/

theorem hexNumber?_concat (s : List Char) (c : Char) :
    hexNumber? (s ++ [c]) = (hexNumber? s).bind fun n => (hexValue? c).map fun d => n * 16 + d := by
  unfold hexNumber?
  rw [List.mapM_append]
  cases s.mapM hexValue? with
  | none => rfl
  | some values => cases h : hexValue? c <;> simp [h]

/-- The digits of a number in base sixteen spell it. -/
theorem hexNumber?_hexDigits (n : Nat) : hexNumber? (hexDigits n) = some n := by
  refine toDigits_induction (by decide) (motive := fun n s => hexNumber? s = some n)
    (fun d hd => ?_) (fun n d _ hd ih => ?_) n
  · rw [← List.nil_append [Nat.digitChar d], hexNumber?_concat, hexValue?_digitChar hd]
    simp [hexNumber?]
  · rw [hexNumber?_concat, ih, hexValue?_digitChar hd]
    rfl

end FileWatch.Text

namespace FileWatch.Toml

/-! ### Whole numbers of a document -/

theorem digit?_digitChar {radix d : Nat} (hradix : radix ≤ 16) (hd : d < radix) :
    digit? radix (Nat.digitChar d) = some d := by
  simp [digit?, Text.hexValue?_digitChar (show d < 16 by omega), hd]

theorem digitsAfter?_cons {radix d : Nat} {c : Char} (h : digit? radix c = some d) (n : Nat)
    (s : List Char) : digitsAfter? radix n (c :: s) = digitsAfter? radix (n * radix + d) s := by
  rw [digitsAfter?.eq_def]
  simp only [h]

/-- The digits of a number are read one by one. -/
theorem digitsAfter?_toDigits {radix : Nat} (hlow : 1 < radix) (hhigh : radix ≤ 16) (n : Nat)
    (rest : List Char) :
    digitsAfter? radix 0 (Nat.toDigits radix n ++ rest) = digitsAfter? radix n rest := by
  refine Text.toDigits_induction hlow
    (motive := fun n s => ∀ rest, digitsAfter? radix 0 (s ++ rest) = digitsAfter? radix n rest)
    (fun d hd rest => ?_) (fun n d _ hd ih rest => ?_) n rest
  · rw [List.singleton_append, digitsAfter?_cons (digit?_digitChar hhigh hd), Nat.zero_mul,
      Nat.zero_add]
  · rw [List.append_assoc, ih, List.singleton_append,
      digitsAfter?_cons (digit?_digitChar hhigh hd)]

theorem digits?_cons {radix d : Nat} {c : Char} (h : digit? radix c = some d) (s : List Char) :
    digits? radix (c :: s) = digitsAfter? radix 0 (c :: s) := by
  rw [digits?, h, digitsAfter?_cons h, Nat.zero_mul, Nat.zero_add]
  rfl

/-- A digit other than zero begins a decimal number without a sign. -/
theorem integer?_of_digit {d : Nat} (hpos : 0 < d) (hlt : d < 10) (s : List Char) :
    integer? (Nat.digitChar d :: s) =
      ((digits? 10 (Nat.digitChar d :: s)).map fun r => (Int.ofNat r.1, r.2)).bind fun r =>
        if -Int.ofNat largest - 1 ≤ r.1 ∧ r.1 ≤ Int.ofNat largest then some r else none := by
  interval_cases d <;> rfl

/-- A number that is not too large is read as it is written, up to the end of its line. -/
theorem integer?_toDigits {n : Nat} (hn : n ≤ largest) (rest : List Char) :
    integer? (Nat.toDigits 10 n ++ '\n' :: rest) = some (Int.ofNat n, '\n' :: rest) := by
  rcases Nat.eq_zero_or_pos n with rfl | hpos
  · rfl
  · obtain ⟨d, digits, hlt, hd, hdigits⟩ := Text.toDigits_eq_cons (b := 10) (by decide) n
    have hread := digitsAfter?_toDigits (show 1 < 10 by decide) (by decide) n ('\n' :: rest)
    have hend : digitsAfter? 10 n ('\n' :: rest) = some (n, '\n' :: rest) := by
      rw [digitsAfter?.eq_def]
      rfl
    have hbounds : -Int.ofNat largest - 1 ≤ Int.ofNat n ∧ Int.ofNat n ≤ Int.ofNat largest := by
      simp only [Int.ofNat_eq_natCast]
      omega
    rw [hdigits, List.cons_append] at hread ⊢
    rw [integer?_of_digit (hd hpos) hlt, digits?_cons (digit?_digitChar (by decide) hlt), hread,
      hend]
    exact if_pos hbounds

end FileWatch.Toml

/-! # Hexadecimal — numbers in base sixteen

Digits are written in lower case and read in either case. Main statement: a digit that is written
reads back (`hexValue?_digitChar`).
-/

namespace FileWatch.Text

/-- The digits of a number. -/
def hexDigits (n : Nat) : List Char := Nat.toDigits 16 n

/-- The value of a digit. -/
def hexValue? (c : Char) : Option Nat :=
  if '0' ≤ c ∧ c ≤ '9' then some (c.toNat - '0'.toNat)
  else if 'a' ≤ c ∧ c ≤ 'f' then some (c.toNat - 'a'.toNat + 10)
  else if 'A' ≤ c ∧ c ≤ 'F' then some (c.toNat - 'A'.toNat + 10)
  else none

/-- The number that digits spell. -/
def hexNumber? (digits : List Char) : Option Nat :=
  (digits.mapM hexValue?).map fun values => values.foldl (fun n d => n * 16 + d) 0

theorem hexValue?_digitChar {n : Nat} (h : n < 16) : hexValue? (Nat.digitChar n) = some n := by
  have hall : ∀ n, n < 16 → hexValue? (Nat.digitChar n) = some n := by decide
  exact hall n h

end FileWatch.Text

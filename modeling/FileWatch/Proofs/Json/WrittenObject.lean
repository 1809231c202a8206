import FileWatch.Json.Reader

/-! # WrittenObject — an object of texts reads back as it is written

A character is read back from how it stands in a string, whether for itself or by an escape
(`stringUnits?_quoteChar`), so a text is read back from its string and nothing after the closing
quotation mark is touched (`stringBody?_quoted`). Then each member leaves what comes after it
(`members?_last`, `members?_cons`), and an object whose members are texts reads back whole
(`parse?_writtenObject`). What is written holds no control character.
-/

namespace FileWatch.Json

/-! ### Strings -/

theorem ofCodeUnit_of_lt {c : Char} (h : c.toNat < 0x20) : Unit16.ofCodeUnit c.toNat = .char c := by
  unfold Unit16.ofCodeUnit
  rw [if_neg (by omega), if_neg (by omega), Char.ofNat_toNat]

theorem hexNumber?_of_lt {n : Nat} (h : n < 0x20) :
    Text.hexNumber? ['0', '0', Nat.digitChar (n / 16), Nat.digitChar (n % 16)] = some n := by
  have hzero : Text.hexValue? '0' = some 0 := by decide
  have hvalue : ((0 * 16 + 0) * 16 + n / 16) * 16 + n % 16 = n := by omega
  simp only [Text.hexNumber?, List.mapM_cons, List.mapM_nil, hzero,
    Text.hexValue?_digitChar (by omega : n / 16 < 16),
    Text.hexValue?_digitChar (by omega : n % 16 < 16)]
  show some (((0 * 16 + 0) * 16 + n / 16) * 16 + n % 16) = some n
  rw [hvalue]

/-- A character that stands for itself. -/
theorem stringUnits?_of_plain {c : Char} (hcontrol : ¬ c.toNat < 0x20) (hquote : c ≠ '"')
    (hescape : c ≠ '\\') (rest : List Char) :
    stringUnits? (c :: rest) = (stringUnits? rest).map fun r => (.char c :: r.1, r.2) := by
  rw [stringUnits?, if_neg (by simp [hcontrol, hescape]), Option.map_eq_bind]
  · rfl
  · exact hquote
  · simp [hescape]
  · simp [hescape]

/-- A character is read back from how it stands in a string. -/
theorem stringUnits?_quoteChar (c : Char) (rest : List Char) :
    stringUnits? (quoteChar c ++ rest) =
      (stringUnits? rest).map fun r => (.char c :: r.1, r.2) := by
  unfold quoteChar
  split
  case h_8 hquote hescape _ _ _ _ _ =>
    by_cases hcontrol : c.toNat < 0x20
    · rw [if_pos hcontrol, Option.map_eq_bind, ← ofCodeUnit_of_lt hcontrol]
      simp only [List.cons_append, List.nil_append, stringUnits?, hexNumber?_of_lt hcontrol]
      rfl
    · rw [if_neg hcontrol, List.singleton_append, stringUnits?_of_plain hcontrol hquote hescape]
  -- each of the others has a short escape
  all_goals
    rw [Option.map_eq_bind]
    rfl

theorem stringUnits?_quoted (s rest : List Char) :
    stringUnits? (s.flatMap quoteChar ++ '"' :: rest) = some (s.map Unit16.char, rest) := by
  induction s with
  | nil => rfl
  | cons c s ih =>
    rw [List.flatMap_cons, List.append_assoc, stringUnits?_quoteChar, ih]
    rfl

theorem textOfUnits?_char (s : List Char) : textOfUnits? (s.map Unit16.char) = some s := by
  induction s with
  | nil => rfl
  | cons c s ih =>
    rw [List.map_cons, textOfUnits?, ih]
    rfl

/-- A text is read back from its string, which ends where it should. -/
theorem stringBody?_quoted (s rest : List Char) :
    stringBody? (s.flatMap quoteChar ++ '"' :: rest) = some (some s, rest) := by
  rw [stringBody?, stringUnits?_quoted, Option.map_some, textOfUnits?_char]

/-- No character of a string is a control character. -/
theorem ge_of_mem_quoteChar {c d : Char} (h : d ∈ quoteChar c) : 0x20 ≤ d.toNat := by
  unfold quoteChar at h
  split at h
  case h_8 =>
    by_cases hcontrol : c.toNat < 0x20
    · have hdigit : ∀ n < 16, 0x20 ≤ (Nat.digitChar n).toNat := by decide
      rw [if_pos hcontrol] at h
      simp only [List.mem_cons, List.not_mem_nil, or_false] at h
      rcases h with rfl | rfl | rfl | rfl | rfl | rfl
      · decide
      · decide
      · decide
      · decide
      · exact hdigit _ (by omega)
      · exact hdigit _ (by omega)
    · rw [if_neg hcontrol, List.mem_singleton] at h
      rw [h]
      exact Nat.le_of_not_lt hcontrol
  all_goals
    simp only [List.mem_cons, List.not_mem_nil, or_false] at h
    rcases h with rfl | rfl <;> decide

theorem ge_of_mem_quote {s : List Char} {d : Char} (h : d ∈ quote s) : 0x20 ≤ d.toNat := by
  rw [quote] at h
  simp only [List.mem_append, List.mem_singleton, List.mem_flatMap] at h
  rcases h with (rfl | ⟨c, -, hc⟩) | rfl
  · decide
  · exact ge_of_mem_quoteChar hc
  · decide

/-! ### Objects -/

/-- A member of an object, of a name and a text. -/
structure TextMember where
  name : List Char
  text : List Char

namespace TextMember

/-- The member as a line writes it. -/
def written (m : TextMember) : List Char := quote m.name ++ ':' :: quote m.text

/-- The member as it is read. -/
def value (m : TextMember) : Option (List Char) × Value := (some m.name, .string (some m.text))

end TextMember

/-- Members one after the other. -/
def writtenMembers : List TextMember → List Char
  | [] => []
  | [m] => m.written
  | m :: ms => m.written ++ ',' :: writtenMembers ms

/-- An object on one line. -/
def writtenObject (ms : List TextMember) : List Char := '\x7b' :: writtenMembers ms ++ ['\x7d']

theorem quote_append (s rest : List Char) :
    quote s ++ rest = '"' :: (s.flatMap quoteChar ++ '"' :: rest) := by
  simp [quote]

theorem value?_quoted (n : Nat) (s rest : List Char) :
    value? (n + 1) (quote s ++ rest) = some (.string (some s), rest) := by
  rw [quote_append, value?]
  show (stringBody? (s.flatMap quoteChar ++ '"' :: rest)).map _ = _
  rw [stringBody?_quoted]
  rfl

theorem skipBlanks_written (m : TextMember) (rest : List Char) :
    skipBlanks (m.written ++ rest)
      = '"' :: (m.name.flatMap quoteChar ++ '"' :: ':' :: (quote m.text ++ rest)) := by
  rw [TextMember.written, List.append_assoc, quote_append]
  rfl

theorem skipBlanks_colon (s : List Char) : skipBlanks (':' :: s) = ':' :: s := rfl

theorem members?_last (n : Nat) (m : TextMember) (rest : List Char) :
    members? (n + 2) (m.written ++ '\x7d' :: rest) = some ([m.value], rest) := by
  rw [members?, skipBlanks_written]
  simp only [stringBody?_quoted, skipBlanks_colon, value?_quoted, Option.bind_eq_bind,
    Option.bind_some]
  rfl

theorem members?_cons (n : Nat) (m : TextMember) (rest : List Char) :
    members? (n + 2) (m.written ++ ',' :: rest) =
      (members? (n + 1) rest).map fun r => (m.value :: r.1, r.2) := by
  rw [members?, skipBlanks_written, Option.map_eq_bind]
  simp only [stringBody?_quoted, skipBlanks_colon, value?_quoted, Option.bind_eq_bind,
    Option.bind_some]
  rfl

theorem members?_writtenMembers {ms : List TextMember} (hne : ms ≠ []) {n : Nat}
    (hn : ms.length < n) (rest : List Char) :
    members? n (writtenMembers ms ++ '\x7d' :: rest) = some (ms.map TextMember.value, rest) := by
  induction ms generalizing n with
  | nil => exact absurd rfl hne
  | cons m ms ih =>
    obtain ⟨k, rfl⟩ : ∃ k, n = k + 2 := ⟨n - 2, by simp at hn; omega⟩
    cases ms with
    | nil => exact members?_last k m rest
    | cons m' ms =>
      have hrest := ih (List.cons_ne_nil m' ms) (n := k + 1) (by simpa using hn)
      rw [writtenMembers, List.append_assoc, List.cons_append, members?_cons, hrest]
      · rfl
      · simp

theorem length_le_writtenMembers (ms : List TextMember) :
    ms.length ≤ (writtenMembers ms).length := by
  induction ms with
  | nil => exact Nat.le_refl _
  | cons m ms ih =>
    cases ms with
    | nil =>
      simp only [writtenMembers, TextMember.written, List.length_append, List.length_cons,
        List.length_nil]
      omega
    | cons m' ms =>
      have hcons : writtenMembers (m :: m' :: ms) = m.written ++ ',' :: writtenMembers (m' :: ms) :=
        rfl
      rw [hcons]
      simp only [List.length_append, List.length_cons] at ih ⊢
      omega

theorem value?_writtenObject {m : TextMember} {ms : List TextMember} (n : Nat) :
    value? (n + 1) (writtenObject (m :: ms)) =
      (members? n (writtenMembers (m :: ms) ++ ['\x7d'])).map fun r => (.object r.1, r.2) := by
  obtain ⟨s, hs⟩ : ∃ s, writtenMembers (m :: ms) = '"' :: s := by
    cases ms <;> exact ⟨_, rfl⟩
  rw [writtenObject, hs, value?]
  rfl

/-- An object of texts is read back from its line. -/
theorem parse?_writtenObject {ms : List TextMember} (hne : ms ≠ []) :
    parse? (writtenObject ms) = some (.object (ms.map TextMember.value)) := by
  obtain ⟨m, ms', rfl⟩ := List.exists_cons_of_ne_nil hne
  have hlength := length_le_writtenMembers (m :: ms')
  have hfuel : (m :: ms').length < 2 * (writtenObject (m :: ms')).length + 1 := by
    simp only [writtenObject, List.length_cons, List.length_append] at hlength ⊢
    omega
  rw [parse?, value?_writtenObject, members?_writtenMembers hne hfuel]
  rfl

theorem ge_of_mem_writtenMembers {ms : List TextMember} {c : Char} (h : c ∈ writtenMembers ms) :
    0x20 ≤ c.toNat := by
  have hmember (m : TextMember) (hc : c ∈ m.written) : 0x20 ≤ c.toNat := by
    rw [TextMember.written, List.mem_append, List.mem_cons] at hc
    rcases hc with hc | rfl | hc
    · exact ge_of_mem_quote hc
    · decide
    · exact ge_of_mem_quote hc
  induction ms with
  | nil => cases h
  | cons m ms ih =>
    cases ms with
    | nil => exact hmember m h
    | cons m' ms =>
      rcases List.mem_append.mp h with h | h
      · exact hmember m h
      · rcases List.mem_cons.mp h with rfl | h
        · decide
        · exact ih h

/-- An object of texts stands on one line, with no control character. -/
theorem ge_of_mem_writtenObject {ms : List TextMember} {c : Char} (h : c ∈ writtenObject ms) :
    0x20 ≤ c.toNat := by
  rw [writtenObject, List.cons_append, List.mem_cons, List.mem_append, List.mem_singleton] at h
  rcases h with rfl | h | rfl
  · decide
  · exact ge_of_mem_writtenMembers h
  · decide

end FileWatch.Json

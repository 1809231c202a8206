import FileWatch.Proofs.Text.Numerals
import FileWatch.Toml.Reader

/-! # WrittenLine — a document reads back as it is written

A document is written as lines of the form `key = value`. A value is written so that it reads back
up to the end of its line, whatever follows (`ReadsAs`): truth values, numbers that are not too
large, and strings that need no escapes. Then each line adds its member to those before
(`assignment?_line`), and a document of such lines with different keys has exactly their members, in
order (`parse?_of_readable`).
-/

namespace FileWatch.Toml

/-! ### Values -/

/-- Whether a text reads as a value, up to the end of its line. -/
structure ReadsAs (text : List Char) (value : Node) : Prop where
  begins : ∀ rest, skipBlanks (text ++ rest) = text ++ rest
  read : ∀ n rest, value? (n + 1) (text ++ '\n' :: rest) = some (value, '\n' :: rest)

theorem skipBlanks_of_not_blank {c : Char} (h : isBlank c = false) (s : List Char) :
    skipBlanks (c :: s) = c :: s := by
  rw [skipBlanks, List.dropWhile_cons, if_neg (by simp [h])]

theorem readsAs_true : ReadsAs "true".toList (.boolean true) :=
  ⟨fun _ => rfl, fun _ _ => rfl⟩

theorem readsAs_false : ReadsAs "false".toList (.boolean false) :=
  ⟨fun _ => rfl, fun _ _ => rfl⟩

/-- A digit begins a number. -/
theorem value?_of_digit {d : Nat} (hd : d < 10) (n : Nat) (s : List Char) :
    value? (n + 1) (Nat.digitChar d :: s) =
      (integer? (Nat.digitChar d :: s)).map fun r => (.integer r.1, r.2) := by
  interval_cases d <;> rfl

theorem readsAs_number {n : Nat} (hn : n ≤ largest) :
    ReadsAs (Nat.toDigits 10 n) (.integer n) := by
  have hblank : ∀ d < 10, isBlank (Nat.digitChar d) = false := by decide
  obtain ⟨d, digits, hlt, -, hdigits⟩ := Text.toDigits_eq_cons (b := 10) (by decide) n
  refine ⟨fun rest => ?_, fun m rest => ?_⟩
  · rw [hdigits, List.cons_append, skipBlanks_of_not_blank (hblank d hlt)]
  · have hread := integer?_toDigits hn rest
    rw [hdigits, List.cons_append] at hread ⊢
    rw [value?_of_digit hlt, hread]
    rfl

/-- Whether a character stands for itself in a string. -/
def isPlain (c : Char) : Bool := isShown c && c != '"' && c != '\\'

theorem basicString?_of_plain {s : List Char} (h : ∀ c ∈ s, isPlain c = true) (rest : List Char) :
    basicString? (s ++ '"' :: rest) = some (s, rest) := by
  induction s with
  | nil => rw [List.nil_append, basicString?]
  | cons c s ih =>
    have hc : isPlain c = true := h c (List.mem_cons_self ..)
    obtain ⟨⟨hshown, hquote⟩, hescape⟩ : (isShown c = true ∧ c ≠ '"') ∧ c ≠ '\\' := by
      simpa [isPlain] using hc
    rw [List.cons_append, basicString?, if_pos hshown,
      ih fun c' hc' => h c' (List.mem_cons_of_mem _ hc')]
    · rfl
    · exact hquote
    · exact hescape

theorem readsAs_string {s : List Char} (h : ∀ c ∈ s, isPlain c = true) :
    ReadsAs ('"' :: s ++ ['"']) (.string s) := by
  refine ⟨fun rest => rfl, fun n rest => ?_⟩
  have hstring : string? ('"' :: (s ++ '"' :: '\n' :: rest)) = some (s, '\n' :: rest) := by
    -- the opening mark is not the first of three
    have hbasic : string? ('"' :: (s ++ '"' :: '\n' :: rest)) =
        basicString? (s ++ '"' :: '\n' :: rest) := by
      cases s with
      | nil => rfl
      | cons c s =>
        have hc : isPlain c = true := h c (List.mem_cons_self ..)
        have hquote : c ≠ '"' := by
          rintro rfl
          revert hc
          decide
        simp [string?, hquote]
    rw [hbasic, basicString?_of_plain h]
  have hvalue : value? (n + 1) ('"' :: (s ++ '"' :: '\n' :: rest)) =
      (string? ('"' :: (s ++ '"' :: '\n' :: rest))).map fun r => (.string r.1, r.2) := rfl
  rw [List.append_assoc, List.cons_append, List.singleton_append, hvalue, hstring]
  rfl

/-! ### Keys -/

/-- The characters of a bare key are no marks. -/
theorem not_mem_marks {c : Char} (h : isBare c = true) :
    c ∉ [' ', '\t', '#', '[', '"', '\'', '\n', '\r', '.', '\uFEFF'] := by
  have hmarks : ∀ m ∈ [' ', '\t', '#', '[', '"', '\'', '\n', '\r', '.', '\uFEFF'],
      isBare m = false := Text.forall_mem_of_all (by decide)
  intro hc
  rw [hmarks c hc] at h
  cases h

theorem simpleKey?_of_bare {key : List Char} (hne : key ≠ [])
    (hbare : ∀ c ∈ key, isBare c = true) (rest : List Char) :
    simpleKey? (key ++ ' ' :: rest) = some (key, ' ' :: rest) := by
  have htake : (key ++ ' ' :: rest).takeWhile isBare = key := by
    rw [List.takeWhile_append_of_pos hbare]
    exact List.append_nil key
  have hdrop : (key ++ ' ' :: rest).dropWhile isBare = ' ' :: rest := by
    rw [List.dropWhile_append_of_pos hbare]
    rfl
  obtain ⟨c, tail, rfl⟩ := List.exists_cons_of_ne_nil hne
  have hmarks := not_mem_marks (hbare c (List.mem_cons_self ..))
  simp only [List.mem_cons, not_or] at hmarks
  unfold simpleKey?
  split
  · simp_all
  · simp_all
  · rw [htake, hdrop]
    rfl

/-- A bare key is read up to the blank after it. -/
theorem key?_of_bare {key : List Char} (hne : key ≠ []) (hbare : ∀ c ∈ key, isBare c = true)
    (n : Nat) (rest : List Char) :
    key? (n + 1) (key ++ ' ' :: '=' :: rest) = some ([key], '=' :: rest) := by
  have hskip : skipBlanks (key ++ ' ' :: '=' :: rest) = key ++ ' ' :: '=' :: rest := by
    obtain ⟨c, tail, rfl⟩ := List.exists_cons_of_ne_nil hne
    have hmarks := not_mem_marks (hbare c (List.mem_cons_self ..))
    exact skipBlanks_of_not_blank (by simp_all [isBlank]) _
  rw [key?, hskip, simpleKey?_of_bare hne hbare]
  rfl

/-! ### Lines -/

/-- A member of a document, and how its value is written. -/
structure WrittenMember where
  key : List Char
  text : List Char
  value : Node

namespace WrittenMember

/-- The line of a member. -/
def line (m : WrittenMember) : List Char := m.key ++ [' ', '=', ' '] ++ m.text ++ ['\n']

/-- Whether the line of a member can be read. -/
structure IsReadable (m : WrittenMember) : Prop where
  nonempty : m.key ≠ []
  bare : ∀ c ∈ m.key, isBare c = true
  value : ReadsAs m.text m.value

/-- The member itself. -/
def toMember (m : WrittenMember) : Member := (m.key, m.value)

end WrittenMember

theorem insertAt_of_new {key : List Char} {members : List Member}
    (hnew : key ∉ members.map Prod.fst) (value : Node) :
    insertAt [key] value members = some (members ++ [(key, value)]) := by
  have hlookup : lookup key members = none := by
    rw [lookup, Option.map_eq_none_iff, List.find?_eq_none]
    intro m hm hkey
    exact hnew (List.mem_map.mpr ⟨m, hm, eq_of_beq hkey⟩)
  rw [insertAt, hlookup]

/-- A line adds its member to those before. -/
theorem assignment?_line {m : WrittenMember} (hm : m.IsReadable) {members : List Member}
    (hnew : m.key ∉ members.map Prod.fst) (rest : List Char) :
    assignment? ⟨[], members⟩ (m.line ++ rest) =
      some (⟨[], members ++ [m.toMember]⟩, rest) := by
  have hline : m.line ++ rest = m.key ++ ' ' :: '=' :: (' ' :: (m.text ++ '\n' :: rest)) := by
    simp [WrittenMember.line]
  have hvalue (n : Nat) : value? (n + 2) (skipBlanks (' ' :: (m.text ++ '\n' :: rest))) =
      some (m.value, '\n' :: rest) := by
    have hskip : skipBlanks (' ' :: (m.text ++ '\n' :: rest)) = m.text ++ '\n' :: rest :=
      hm.value.begins _
    rw [hskip, hm.value.read]
  have hmembers : changeAt (insertAt [m.key] m.value) [] members =
      some (members ++ [m.toMember]) := insertAt_of_new hnew m.value
  have hend : lineEnd? ('\n' :: rest) = some rest := rfl
  rw [hline, assignment?, key?_of_bare hm.nonempty hm.bare]
  simp only [Option.bind_eq_bind, Option.bind_some, hvalue, hmembers, hend, pure]

/-- A line begins with a character of its key. -/
theorem WrittenMember.IsReadable.exists_bare {m : WrittenMember} (hm : m.IsReadable) :
    ∃ c s, m.line = c :: s ∧ isBare c = true := by
  obtain ⟨c, tail, hkey⟩ := List.exists_cons_of_ne_nil hm.nonempty
  refine ⟨c, tail ++ [' ', '=', ' '] ++ m.text ++ ['\n'], ?_, hm.bare c (by simp [hkey])⟩
  simp [WrittenMember.line, hkey]

/-- A line begins with no blank, comment or line end. -/
theorem skipLines_line {m : WrittenMember} (hm : m.IsReadable) (n : Nat) (rest : List Char) :
    skipLines n (m.line ++ rest) = m.line ++ rest := by
  obtain ⟨c, s, hline, hbare⟩ := hm.exists_bare
  have hmarks := not_mem_marks hbare
  simp only [List.mem_cons, not_or] at hmarks
  rw [hline, List.cons_append]
  cases n with
  | zero => rfl
  | succ n =>
    have hskip : skipBlanks (c :: (s ++ rest)) = c :: (s ++ rest) :=
      skipBlanks_of_not_blank (by simp [isBlank, hmarks]) _
    simp [skipLines, hskip, skipComment, newline?, hmarks]

/-- A line that can be read is read, and then the lines after it. -/
theorem lines?_line {m : WrittenMember} (hm : m.IsReadable) {members : List Member}
    (hnew : m.key ∉ members.map Prod.fst) (n : Nat) (rest : List Char) :
    lines? (n + 1) ⟨[], members⟩ (m.line ++ rest) =
      lines? n ⟨[], members ++ [m.toMember]⟩ rest := by
  have hassigned := assignment?_line hm hnew rest
  obtain ⟨c, s, hline, hbare⟩ := hm.exists_bare
  have hmarks := not_mem_marks hbare
  simp only [List.mem_cons, not_or] at hmarks
  rw [lines?, skipLines_line hm]
  rw [hline, List.cons_append] at hassigned ⊢
  split
  · contradiction
  · simp_all
  · rw [hassigned, Option.bind_some]

/-- Lines with different keys are read one after the other. -/
theorem lines?_of_readable {ms : List WrittenMember} (hms : ∀ m ∈ ms, m.IsReadable)
    {members : List Member} (hkeys : (members.map Prod.fst ++ ms.map WrittenMember.key).Nodup)
    {n : Nat} (hn : ms.length < n) :
    lines? n ⟨[], members⟩ (ms.flatMap WrittenMember.line) =
      some (members ++ ms.map WrittenMember.toMember) := by
  -- the members that are read so far grow by one with each line
  induction ms generalizing members n with
  | nil =>
    obtain ⟨n, rfl⟩ := Nat.exists_eq_succ_of_ne_zero (Nat.ne_of_gt hn)
    simp [lines?, skipLines]
  | cons m ms ih =>
    obtain ⟨n, rfl⟩ := Nat.exists_eq_succ_of_ne_zero (Nat.ne_of_gt (Nat.zero_lt_of_lt hn))
    have hnew : m.key ∉ members.map Prod.fst := fun hmem =>
      (List.nodup_append.mp hkeys).2.2 m.key hmem m.key (List.mem_cons_self ..) rfl
    rw [List.flatMap_cons, lines?_line (hms m (List.mem_cons_self ..)) hnew]
    have hrest : ((members ++ [m.toMember]).map Prod.fst ++ ms.map WrittenMember.key).Nodup := by
      simpa [WrittenMember.toMember] using hkeys
    rw [ih (fun m' hm' => hms m' (List.mem_cons_of_mem _ hm')) hrest (Nat.lt_of_succ_lt_succ hn),
      List.append_assoc]
    rfl

/-- A document has no more lines than characters. -/
theorem length_le_length_lines {ms : List WrittenMember} (hms : ∀ m ∈ ms, m.IsReadable) :
    ms.length ≤ (ms.flatMap WrittenMember.line).length := by
  induction ms with
  | nil => exact Nat.le_refl 0
  | cons m ms ih =>
    obtain ⟨c, s, hline, -⟩ := (hms m (List.mem_cons_self ..)).exists_bare
    have hrest := ih fun m' hm' => hms m' (List.mem_cons_of_mem _ hm')
    simp only [List.flatMap_cons, List.length_append, List.length_cons, hline]
    omega

/-- **A document reads back as it is written**, with its members in order. -/
theorem parse?_of_readable {ms : List WrittenMember} (hms : ∀ m ∈ ms, m.IsReadable)
    (hkeys : (ms.map WrittenMember.key).Nodup) :
    parse? (ms.flatMap WrittenMember.line) = some (ms.map WrittenMember.toMember) := by
  have hmark : skipByteOrderMark (ms.flatMap WrittenMember.line) =
      ms.flatMap WrittenMember.line := by
    cases ms with
    | nil => rfl
    | cons m ms =>
      obtain ⟨c, s, hline, hbare⟩ := (hms m (List.mem_cons_self ..)).exists_bare
      have hmarks := not_mem_marks hbare
      simp only [List.mem_cons, not_or] at hmarks
      simp [hline, skipByteOrderMark, hmarks]
  have hnone : (([] : List Member).map Prod.fst ++ ms.map WrittenMember.key).Nodup := hkeys
  rw [parse?, hmark]
  exact lines?_of_readable hms hnone (Nat.lt_succ_of_le (length_le_length_lines hms))

end FileWatch.Toml

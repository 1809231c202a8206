import FileWatch.EventMask.FlagList
import FileWatch.Proofs.EventMask.Algebra
import FileWatch.Proofs.Text.Splitting
import FileWatch.Proofs.Text.Trimming
import Mathlib.Data.List.Forall2

/-! # ListForm — a list of flags is read piece by piece

What a piece of a list stands for depends on that piece alone (`flagOf?`): a blank one stands for
nothing, and any other for the flag that it names, if it names one. The leftmost that names none is
the error of the list, and without such a piece the list is the union of its flags
(`ofFlagList_eq`). So lists are read compositionally, and an accepted list can be respelled as long
as the same flags are named (`Respelled`).
-/

namespace FileWatch.EventMask

/-- The pieces of a list, between its separators. -/
def listPieces (s : List Char) : List (List Char) := s.splitOnP isSeparator

/-- What a piece stands for: nothing if it is blank, or else the flag that it names. -/
def flagOf? (p : List Char) : Option EventMask :=
  if (Text.trim p).isEmpty then some empty else ofFlagName? p

/-- The error at a piece: its name, trimmed and in its own spelling. -/
def UnknownFlag.ofPiece (p : List Char) : UnknownFlag := ⟨String.ofList (Text.trim p)⟩

/-- The leftmost piece that names no flag. -/
def unknownPiece? (ps : List (List Char)) : Option (List Char) :=
  ps.find? fun p => (flagOf? p).isNone

/-! ### What a list comes to -/

theorem addFlags_cons_of_flag {p : List Char} {flag : EventMask} (h : flagOf? p = some flag)
    (ps : List (List Char)) (m : EventMask) : addFlags (p :: ps) m = addFlags ps (m ||| flag) := by
  unfold flagOf? at h
  rw [addFlags]
  by_cases hblank : (Text.trim p).isEmpty = true
  · rw [if_pos hblank] at h
    obtain rfl := Option.some.inj h
    rw [if_pos hblank, or_empty]
  · rw [if_neg hblank] at h
    rw [if_neg hblank, h]

theorem addFlags_cons_of_unknown {p : List Char} (h : flagOf? p = none) (ps : List (List Char))
    (m : EventMask) : addFlags (p :: ps) m = .error (.ofPiece p) := by
  unfold flagOf? at h
  rw [addFlags]
  by_cases hblank : (Text.trim p).isEmpty = true
  · rw [if_pos hblank] at h
    cases h
  · rw [if_neg hblank] at h
    rw [if_neg hblank, h]
    rfl

/-- The leftmost piece that names no flag is the error, or else all flags are added. -/
theorem addFlags_eq (ps : List (List Char)) (m : EventMask) :
    addFlags ps m =
      match unknownPiece? ps with
      | some p => .error (.ofPiece p)
      | none => .ok ((ps.filterMap flagOf?).foldl (· ||| ·) m) := by
  induction ps generalizing m with
  | nil => rfl
  | cons p ps ih =>
    rcases hp : flagOf? p with _ | flag
    · rw [addFlags_cons_of_unknown hp, unknownPiece?, List.find?_cons_of_pos (by rw [hp]; rfl)]
    · rw [addFlags_cons_of_flag hp, ih, unknownPiece?, unknownPiece?,
        List.find?_cons_of_neg (by rw [hp]; simp), List.filterMap_cons_some hp, List.foldl_cons]

theorem ofFlagList_eq (s : List Char) :
    ofFlagList s =
      match unknownPiece? (listPieces s) with
      | some p => .error (.ofPiece p)
      | none => .ok (((listPieces s).filterMap flagOf?).foldl (· ||| ·) empty) :=
  addFlags_eq (listPieces s) empty

theorem ofFlagList_eq_error_iff {s : List Char} {e : UnknownFlag} :
    ofFlagList s = .error e ↔ ∃ before p after, listPieces s = before ++ p :: after
      ∧ (∀ q ∈ before, flagOf? q ≠ none) ∧ flagOf? p = none ∧ e = .ofPiece p := by
  rw [ofFlagList_eq]
  constructor
  · intro h
    rcases hunknown : unknownPiece? (listPieces s) with _ | p
    · rw [hunknown] at h
      cases h
    · rw [hunknown] at h
      obtain ⟨hp, before, after, hs, hbefore⟩ := List.find?_eq_some_iff_append.mp hunknown
      refine ⟨before, p, after, hs, fun q hq hnone => ?_, Option.isNone_iff_eq_none.mp hp,
        (Except.error.inj h).symm⟩
      have hq := hbefore q hq
      rw [hnone] at hq
      cases hq
  · rintro ⟨before, p, after, hs, hbefore, hp, rfl⟩
    have hunknown : unknownPiece? (listPieces s) = some p := by
      refine List.find?_eq_some_iff_append.mpr ⟨Option.isNone_iff_eq_none.mpr hp, before, after, hs,
        fun q hq => ?_⟩
      rw [Bool.not_eq_true', Option.isNone_eq_false_iff, Option.isSome_iff_ne_none]
      exact hbefore q hq
    rw [hunknown]

theorem ofFlagList_eq_ok_iff {s : List Char} {m : EventMask} :
    ofFlagList s = .ok m ↔ (∀ p ∈ listPieces s, flagOf? p ≠ none)
      ∧ m = ((listPieces s).filterMap flagOf?).foldl (· ||| ·) empty := by
  rw [ofFlagList_eq]
  have hnone : unknownPiece? (listPieces s) = none ↔ ∀ p ∈ listPieces s, flagOf? p ≠ none := by
    simp only [unknownPiece?, List.find?_eq_none, Option.isNone_iff_eq_none, ne_eq]
  rcases hunknown : unknownPiece? (listPieces s) with _ | p
  · rw [hunknown] at hnone
    simp only [Except.ok.injEq, and_iff_right (hnone.mp rfl), eq_comm]
  · rw [hunknown] at hnone
    constructor
    · intro h
      cases h
    · rintro ⟨hall, -⟩
      cases hnone.mpr hall

/-! ### Letters that names do not tell apart -/

/-- A character in the standard spelling of a name. -/
def standardLetter (c : Char) : Char := if c == '-' then '_' else c.toUpper

/-- Whether characters are the same letter of ASCII in either case, or both of `-` and `_`. -/
def IsSameLetter (c d : Char) : Prop :=
  c.toUpper = d.toUpper ∨ (c = '-' ∨ c = '_') ∧ (d = '-' ∨ d = '_')

instance (c d : Char) : Decidable (IsSameLetter c d) := inferInstanceAs (Decidable (_ ∨ _))

theorem standardLetter_eq_of_isSameLetter {c d : Char} (h : IsSameLetter c d) :
    standardLetter c = standardLetter d := by
  rcases h with hupper | ⟨hc, hd⟩
  · have hdash : c = '-' ↔ d = '-' := by
      rw [← Text.toUpper_eq_iff (by decide), hupper, Text.toUpper_eq_iff (by decide)]
    simp only [standardLetter, beq_iff_eq, hdash, hupper]
  · rcases hc with rfl | rfl <;> rcases hd with rfl | rfl <;> rfl

theorem standardLetter_standardLetter (c : Char) :
    standardLetter (standardLetter c) = standardLetter c := by
  by_cases hdash : c = '-'
  · subst hdash
    rfl
  · have hupper : c.toUpper ≠ '-' := fun h => hdash ((Text.toUpper_eq_iff (by decide)).mp h)
    have hstandard : standardLetter c = c.toUpper := if_neg (by simpa using hdash)
    rw [hstandard, standardLetter, if_neg (by simpa using hupper), Text.toUpper_toUpper]

/-- Texts that differ in such letters only have one standard spelling. -/
theorem map_standardLetter_eq {s t : List Char} (h : List.Forall₂ IsSameLetter s t) :
    s.map standardLetter = t.map standardLetter := by
  induction h with
  | nil => rfl
  | cons hletter _ ih =>
    rw [List.map_cons, List.map_cons, standardLetter_eq_of_isSameLetter hletter, ih]

theorem isBlank_standardLetter (c : Char) : Text.isBlank (standardLetter c) = Text.isBlank c := by
  by_cases hdash : c = '-'
  · subst hdash
    rfl
  · rw [standardLetter, if_neg (by simpa using hdash), Text.isBlank_toUpper]

theorem isSeparator_standardLetter (c : Char) : isSeparator (standardLetter c) = isSeparator c := by
  by_cases hdash : c = '-'
  · subst hdash
    rfl
  · rw [standardLetter, if_neg (by simpa using hdash), isSeparator, isSeparator, Bool.eq_iff_iff]
    simp only [Bool.or_eq_true, beq_iff_eq, Text.toUpper_eq_iff (c := c) (d := ',') (by decide),
      Text.toUpper_eq_iff (c := c) (d := '|') (by decide)]

theorem flagOf?_map_standardLetter (p : List Char) :
    flagOf? (p.map standardLetter) = flagOf? p := by
  have htwice : standardLetter ∘ standardLetter = standardLetter :=
    funext standardLetter_standardLetter
  have hspelling : standardSpelling ((Text.trim p).map standardLetter) =
      standardSpelling (Text.trim p) := by
    show ((Text.trim p).map standardLetter).map standardLetter = (Text.trim p).map standardLetter
    rw [List.map_map, htwice]
  rw [flagOf?, flagOf?, ofFlagName?, ofFlagName?, Text.trim_map isBlank_standardLetter,
    List.isEmpty_map, hspelling]

/-! ### Spellings of one list -/

/-- What the pieces of a list stand for. -/
def meanings (s : List Char) : List (Option EventMask) := (listPieces s).map flagOf?

/-- A list is spelled in another way that names the same flags. -/
inductive Respelled : List Char → List Char → Prop
  /-- A separator is swapped for the other. -/
  | separated (a b : List Char) {x y : Char} (hx : isSeparator x = true)
    (hy : isSeparator y = true) : Respelled (a ++ x :: b) (a ++ y :: b)
  /-- The pieces are reordered. -/
  | reordered {s t : List Char} (h : (listPieces s).Perm (listPieces t)) : Respelled s t
  /-- A piece is repeated. -/
  | repeated {s t p : List Char} {before after : List (List Char)}
    (hs : listPieces s = before ++ after) (ht : listPieces t = before ++ p :: after)
    (hp : p ∈ listPieces s) : Respelled s t
  /-- A piece is surrounded by white space. -/
  | spaced {s t p left right : List Char} {before after : List (List Char)}
    (hs : listPieces s = before ++ p :: after)
    (ht : listPieces t = before ++ (left ++ p ++ right) :: after)
    (hleft : ∀ c ∈ left, Text.isBlank c = true) (hright : ∀ c ∈ right, Text.isBlank c = true) :
    Respelled s t
  /-- A blank piece is added. -/
  | blank {s t gap : List Char} {before after : List (List Char)}
    (hs : listPieces s = before ++ after) (ht : listPieces t = before ++ gap :: after)
    (hgap : ∀ c ∈ gap, Text.isBlank c = true) : Respelled s t
  /-- Letters change their case, and `-` and `_` are exchanged. -/
  | lettered {s t : List Char} (h : List.Forall₂ IsSameLetter s t) : Respelled s t
  | symm {s t : List Char} (h : Respelled s t) : Respelled t s
  | trans {s t u : List Char} (hst : Respelled s t) (htu : Respelled t u) : Respelled s u

theorem listPieces_append {sep : Char} (hsep : isSeparator sep = true) (a b : List Char) :
    listPieces (a ++ sep :: b) = listPieces a ++ listPieces b :=
  List.splitOnP_append_cons a b hsep

theorem flagOf?_of_blank {p : List Char} (h : ∀ c ∈ p, Text.isBlank c = true) :
    flagOf? p = some empty := by
  rw [flagOf?, (Text.trim_eq_nil_iff p).mpr h]
  rfl

theorem flagOf?_append {left right : List Char} (hleft : ∀ c ∈ left, Text.isBlank c = true)
    (hright : ∀ c ∈ right, Text.isBlank c = true) (p : List Char) :
    flagOf? (left ++ p ++ right) = flagOf? p := by
  rw [flagOf?, flagOf?, ofFlagName?, ofFlagName?, Text.trim_append hleft hright]

theorem meanings_map_standardLetter (s : List Char) :
    meanings (s.map standardLetter) = meanings s := by
  have hmap : flagOf? ∘ List.map standardLetter = flagOf? := funext flagOf?_map_standardLetter
  rw [meanings, listPieces, splitOnP_map isSeparator_standardLetter, List.map_map, hmap]
  rfl

/-- Respelling changes no more of what the pieces stand for than the order, the number and what
stands for nothing. -/
theorem Respelled.mem_meanings {s t : List Char} (h : Respelled s t) {o : Option EventMask}
    (ho : o ≠ some empty) : o ∈ meanings s ↔ o ∈ meanings t := by
  induction h with
  | separated a b hx hy => rw [meanings, meanings, listPieces_append hx, listPieces_append hy]
  | reordered h => exact (h.map flagOf?).mem_iff
  | @repeated s t p before after hs ht hp =>
    have hmem : flagOf? p ∈ meanings s := List.mem_map_of_mem hp
    rw [meanings, hs] at hmem
    rw [meanings, meanings, hs, ht]
    simp only [List.map_append, List.map_cons, List.mem_append, List.mem_cons] at hmem ⊢
    constructor
    · rintro (hbefore | hafter)
      · exact .inl hbefore
      · exact .inr (.inr hafter)
    · rintro (hbefore | rfl | hafter)
      · exact .inl hbefore
      · exact hmem
      · exact .inr hafter
  | spaced hs ht hleft hright =>
    rw [meanings, meanings, hs, ht, List.map_append, List.map_append, List.map_cons, List.map_cons,
      flagOf?_append hleft hright]
  | blank hs ht hgap =>
    rw [meanings, meanings, hs, ht]
    simp only [List.map_append, List.map_cons, flagOf?_of_blank hgap, List.mem_append,
      List.mem_cons, ho, false_or]
  | @lettered s t h =>
    rw [← meanings_map_standardLetter s, map_standardLetter_eq h, meanings_map_standardLetter]
  | symm _ ih => exact ih.symm
  | trans _ _ ihst ihtu => exact ihst.trans ihtu

/-! ### Lists as wholes -/

/-- What two lists come to, one behind the other: the first error there is, or else the union. -/
def inTurn : Except UnknownFlag EventMask → Except UnknownFlag EventMask →
    Except UnknownFlag EventMask
  | .error e, _ => .error e
  | .ok _, .error e => .error e
  | .ok m, .ok n => .ok (m ||| n)

theorem ofFlagList_append {sep : Char} (hsep : isSeparator sep = true) (a b : List Char) :
    ofFlagList (a ++ sep :: b) = inTurn (ofFlagList a) (ofFlagList b) := by
  have hunknown : unknownPiece? (listPieces (a ++ sep :: b)) =
      (unknownPiece? (listPieces a)).or (unknownPiece? (listPieces b)) := by
    rw [listPieces_append hsep, unknownPiece?, List.find?_append]
    rfl
  rw [ofFlagList_eq, ofFlagList_eq, ofFlagList_eq, hunknown]
  rcases unknownPiece? (listPieces a) with _ | p
  · rcases unknownPiece? (listPieces b) with _ | q
    · show Except.ok _ = Except.ok _
      rw [listPieces_append hsep, List.filterMap_append, List.foldl_append, foldl_or]
    · rfl
  · rfl

/-- Respelling keeps what an accepted list comes to. -/
theorem Respelled.accepted {s t : List Char} {m : EventMask} (h : Respelled s t)
    (hs : ofFlagList s = .ok m) : ofFlagList t = .ok m := by
  rw [ofFlagList_eq_ok_iff] at hs ⊢
  obtain ⟨hread, rfl⟩ := hs
  constructor
  · intro p hp hnone
    have hmem : none ∈ meanings s :=
      (h.mem_meanings (Option.some_ne_none empty).symm).mpr (List.mem_map.mpr ⟨p, hp, hnone⟩)
    obtain ⟨q, hq, hnone⟩ := List.mem_map.mp hmem
    exact hread q hq hnone
  · apply foldl_congr
    intro flag hflag
    have hmem := h.mem_meanings (o := some flag) (by simpa using hflag)
    simpa only [meanings, List.mem_map, List.mem_filterMap] using hmem

theorem all_contains_of_flagOf? {p : List Char} {flag : EventMask} (h : flagOf? p = some flag) :
    all.contains flag = true := by
  simp only [flagOf?, ofFlagName?] at h
  split_ifs at h
  · obtain rfl := Option.some.inj h
    exact contains_empty all
  · obtain rfl := Option.some.inj h
    exact contains_self all
  · obtain ⟨c, -, rfl⟩ := Option.map_eq_some_iff.mp h
    cases c <;> decide

/-- Only bits that stand for classes come from a list. -/
theorem all_contains_of_ofFlagList {s : List Char} {m : EventMask} (h : ofFlagList s = .ok m) :
    all.contains m = true := by
  obtain ⟨-, rfl⟩ := ofFlagList_eq_ok_iff.mp h
  refine (contains_foldl _ _).mpr ⟨contains_empty all, fun flag hflag => ?_⟩
  obtain ⟨p, -, hp⟩ := List.mem_filterMap.mp hflag
  exact all_contains_of_flagOf? hp

/-- **Lists of flags are read compositionally.** Two lists with a separator between them come to the
error of the first if it has one, or else to that of the second, or else to the union of the two
masks. So the error is the leftmost piece that is neither blank nor the name of a flag, trimmed and
in its own spelling. A list that is accepted can be respelled without harm: with the other
separator, with its pieces in another order, repeated or between white space, with blank pieces, and
with ASCII letters in the other case or `-` and `_` exchanged. No list comes to a bit that stands
for no class. -/
theorem flag_lists_compositional :
    (∀ a b sep, isSeparator sep = true →
      ofFlagList (a ++ sep :: b) = inTurn (ofFlagList a) (ofFlagList b))
      ∧ (∀ s e, ofFlagList s = .error e ↔ ∃ before p after, listPieces s = before ++ p :: after
          ∧ (∀ q ∈ before, flagOf? q ≠ none) ∧ flagOf? p = none
          ∧ e = ⟨String.ofList (Text.trim p)⟩)
      ∧ (∀ s t, Respelled s t → ∀ m, ofFlagList s = .ok m ↔ ofFlagList t = .ok m)
      ∧ ∀ s m, ofFlagList s = .ok m → all.contains m = true := by
  refine ⟨fun a b sep hsep => ?_, fun s e => ?_, fun s t h m => ?_, fun s m h => ?_⟩
  · exact ofFlagList_append hsep a b
  · exact ofFlagList_eq_error_iff
  · exact ⟨h.accepted, h.symm.accepted⟩
  · exact all_contains_of_ofFlagList h

/-- Of two pieces that name nothing the left one is the error. A list of two flags is accepted also
in other letters, the other way round, and with a no-break space and a blank piece. -/
theorem flag_lists_compositional_of_odd_spelling :
    ofFlagList "size, No-Such|bogus".toList = .error ⟨"No-Such"⟩
      ∧ ofFlagList "\u00A0last-Write||FILE-NAME".toList =
        .ok (single .fileName ||| single .lastWrite)
      ∧ all.contains (single .fileName ||| single .lastWrite) = true := by
  obtain ⟨happend, -, hrespelled, hknown⟩ := flag_lists_compositional
  have hlettered : Respelled "file_name,LAST_WRITE".toList "FILE-NAME,last-Write".toList :=
    .lettered (by decide)
  have hreordered : Respelled "FILE-NAME,last-Write".toList "last-Write|FILE-NAME".toList :=
    .reordered (by decide)
  have hspaced : Respelled "last-Write|FILE-NAME".toList "\u00A0last-Write|FILE-NAME".toList :=
    @Respelled.spaced _ _ "last-Write".toList ['\u00A0'] [] [] ["FILE-NAME".toList] (by decide)
      (by decide) (List.forall_mem_singleton.mpr rfl) (List.forall_mem_nil _)
  have hblank :
      Respelled "\u00A0last-Write|FILE-NAME".toList "\u00A0last-Write||FILE-NAME".toList :=
    @Respelled.blank _ _ [] ["\u00A0last-Write".toList] ["FILE-NAME".toList] (by decide) (by decide)
      (List.forall_mem_nil _)
  have hodd := ((hlettered.trans hreordered).trans hspaced).trans hblank
  have hplain : ofFlagList "file_name,LAST_WRITE".toList =
      .ok (single .fileName ||| single .lastWrite) := by decide
  have hread := (hrespelled _ _ hodd _).mp hplain
  refine ⟨?_, hread, hknown _ _ hread⟩
  exact (happend "size, No-Such".toList "bogus".toList '|' rfl).trans (by decide)

end FileWatch.EventMask

import FileWatch.Proofs.EventMask.ListForm
import FileWatch.Proofs.EventMask.WrittenForm

/-! # Notations — written masks read as lists of flags

A piece of a written mask is the name of a class or a number (`ofPiece_cases`). As a piece of a
list, a name stands for its class and a number for no flag (`flagOf?_of_ofPiece`). Neither has a
comma in it, so both readers see the same pieces (`listPieces_of_comma`). They add the same flags
until the list reader comes to a number, which is its error (`addFlags_of_addPieces`). So a written
mask is a list just when it has no numbers; and it asks for no class just when it has nothing but
numbers without the bits of any class (`classes_eq_nil_of_ofText`).
-/

namespace FileWatch

theorem toOption_eq_some_iff {α β : Type} {x : Except α β} {y : β} :
    x.toOption = some y ↔ x = .ok y := by
  cases x <;> simp [Except.toOption]

namespace EventMask

/-- The pieces of a written mask, trimmed. -/
def words (s : List Char) : List (List Char) := (s.splitOn '|').map Text.trim

/-- Whether a piece is a number. -/
def isNumber (w : List Char) : Bool := ['0', 'x'].isPrefixOf w

/-! ### Pieces -/

theorem ofName?_eq_some {s : List Char} {c : EventClass} (h : EventClass.ofName? s = some c) :
    c.name.toList = s := by
  rw [EventClass.ofName?] at h
  have hname := List.find?_some h
  exact eq_of_beq hname

/-- A piece that is read is the name of a class or a number. -/
theorem ofPiece_cases {p : List Char} {flag : EventMask} (h : ofPiece p = .ok flag) :
    (∃ c : EventClass, Text.trim p = c.name.toList ∧ flag = single c)
      ∨ ∃ digits w, Text.trim p = '0' :: 'x' :: digits ∧ hexWord? digits = some w
        ∧ flag = ⟨w⟩ := by
  unfold ofPiece at h
  split at h
  · cases h
  · rename_i digits hnumber
    split at h
    · rename_i w hw
      exact .inr ⟨digits, w, hnumber, hw, (Except.ok.inj h).symm⟩
    · cases h
  · split at h
    · rename_i c hname
      exact .inl ⟨c, (ofName?_eq_some hname).symm, (Except.ok.inj h).symm⟩
    · cases h

theorem flagOf?_name {p : List Char} {c : EventClass} (h : Text.trim p = c.name.toList) :
    flagOf? p = some (single c) := by
  rw [flagOf?, ofFlagName?, h]
  cases c <;> decide

theorem flagOf?_number {p digits : List Char} (h : Text.trim p = '0' :: 'x' :: digits) :
    flagOf? p = none := by
  -- no name begins as the number does, whatever its digits are
  rw [flagOf?, ofFlagName?, h]
  rfl

/-- In a list of flags a name stands for its class, and a number for nothing known. -/
theorem flagOf?_of_ofPiece {p : List Char} {flag : EventMask} (h : ofPiece p = .ok flag) :
    flagOf? p = if isNumber (Text.trim p) then none else some flag := by
  rcases ofPiece_cases h with ⟨c, hname, rfl⟩ | ⟨digits, w, hnumber, -, rfl⟩
  · have hplain : isNumber c.name.toList = false := by cases c <;> decide
    rw [flagOf?_name hname, hname, hplain, if_neg Bool.false_ne_true]
  · rw [flagOf?_number hnumber, hnumber]
    rfl

/-- The characters of a number are digits. -/
theorem hexValue?_ne_none {digits : List Char} {values : List Nat}
    (h : digits.mapM Text.hexValue? = some values) : ∀ c ∈ digits, Text.hexValue? c ≠ none := by
  induction digits generalizing values with
  | nil => simp
  | cons d digits ih =>
    rw [List.mapM_cons] at h
    obtain ⟨value, hvalue, h⟩ := Option.bind_eq_some_iff.mp h
    obtain ⟨rest, hrest, -⟩ := Option.bind_eq_some_iff.mp h
    exact List.forall_mem_cons.mpr ⟨by simp [hvalue], ih hrest⟩

/-- What spells a word is a number, after an optional `+`. -/
theorem hexNumber?_of_hexWord? {digits : List Char} {w : BitVec 32}
    (h : hexWord? digits = some w) :
    ∃ s n, (digits = s ∨ digits = '+' :: s) ∧ Text.hexNumber? s = some n := by
  unfold hexWord? at h
  split at h
  · rename_i s
    dsimp only at h
    split_ifs at h
    split at h
    · rename_i n hn
      exact ⟨s, n, .inr rfl, hn⟩
    · cases h
  · dsimp only at h
    split_ifs at h
    split at h
    · rename_i n hn
      exact ⟨digits, n, .inl rfl, hn⟩
    · cases h

/-- There is no comma in a number. -/
theorem comma_of_hexWord? {digits : List Char} {w : BitVec 32} (h : hexWord? digits = some w) :
    ',' ∉ digits := by
  obtain ⟨s, n, hdigits, hn⟩ := hexNumber?_of_hexWord? h
  obtain ⟨values, hvalues, -⟩ := Option.map_eq_some_iff.mp hn
  have hcomma : ',' ∉ s := fun hc => hexValue?_ne_none hvalues ',' hc (by decide)
  rcases hdigits with rfl | rfl
  · exact hcomma
  · exact fun hc => hcomma ((List.mem_cons.mp hc).resolve_left (by decide))

theorem comma_of_ofPiece {p : List Char} {flag : EventMask} (h : ofPiece p = .ok flag) :
    ',' ∉ p := by
  intro hcomma
  have htrim : ',' ∈ Text.trim p :=
    (Text.mem_trim_or_blank hcomma).resolve_right (by decide)
  rcases ofPiece_cases h with ⟨c, hname, -⟩ | ⟨digits, w, hnumber, hw, -⟩
  · rw [hname] at htrim
    revert htrim
    cases c <;> decide
  · rw [hnumber, List.mem_cons, List.mem_cons] at htrim
    rcases htrim with hzero | hx | hdigits
    · revert hzero
      decide
    · revert hx
      decide
    · exact comma_of_hexWord? hw hdigits

/-! ### Texts -/

theorem addPieces_cons_eq_ok {p : List Char} {ps : List (List Char)} {m n : EventMask}
    (h : addPieces (p :: ps) m = .ok n) :
    ∃ flag, ofPiece p = .ok flag ∧ addPieces ps (m ||| flag) = .ok n := by
  rw [addPieces] at h
  split at h
  · rename_i flag hflag
    exact ⟨flag, hflag, h⟩
  · cases h

/-- Pieces that are read are all flags, and the mask is their union. -/
theorem of_addPieces {ps : List (List Char)} {m n : EventMask} (h : addPieces ps m = .ok n) :
    (∀ p ∈ ps, ∃ flag, ofPiece p = .ok flag)
      ∧ n = (ps.filterMap fun p => (ofPiece p).toOption).foldl (· ||| ·) m := by
  induction ps generalizing m with
  | nil => exact ⟨by simp, (Except.ok.inj h).symm⟩
  | cons p ps ih =>
    obtain ⟨flag, hflag, hrest⟩ := addPieces_cons_eq_ok h
    obtain ⟨hread, hunion⟩ := ih hrest
    refine ⟨List.forall_mem_cons.mpr ⟨⟨flag, hflag⟩, hread⟩, ?_⟩
    rw [List.filterMap_cons_some (by rw [hflag]; rfl), List.foldl_cons]
    exact hunion

/-- Both readers add the same flags, until the reader of lists comes to a number. -/
theorem addFlags_of_addPieces {ps : List (List Char)} {m n : EventMask}
    (h : addPieces ps m = .ok n) :
    addFlags ps m = match (ps.map Text.trim).find? isNumber with
      | some w => .error ⟨String.ofList w⟩
      | none => .ok n := by
  induction ps generalizing m with
  | nil =>
    obtain rfl := Except.ok.inj h
    rfl
  | cons p ps ih =>
    obtain ⟨flag, hflag, hrest⟩ := addPieces_cons_eq_ok h
    have hmeaning := flagOf?_of_ofPiece hflag
    rw [List.map_cons]
    by_cases hnumber : isNumber (Text.trim p) = true
    · rw [if_pos hnumber] at hmeaning
      rw [addFlags_cons_of_unknown hmeaning, List.find?_cons_of_pos hnumber]
      rfl
    · rw [if_neg hnumber] at hmeaning
      rw [addFlags_cons_of_flag hmeaning, List.find?_cons_of_neg hnumber]
      exact ih hrest

/-- A text is blank, and the empty mask, or its pieces are read. -/
theorem ofText_cases {s : List Char} {m : EventMask} (h : ofText s = .ok m) :
    (Text.trim s = [] ∧ m = empty) ∨ addPieces (s.splitOn '|') empty = .ok m := by
  rw [ofText] at h
  split at h
  · rename_i hblank
    exact .inl ⟨List.isEmpty_iff.mp hblank, (Except.ok.inj h).symm⟩
  · exact .inr h

theorem comma_of_addPieces {s : List Char} {m n : EventMask}
    (h : addPieces (s.splitOn '|') m = .ok n) : ',' ∉ s := by
  intro hcomma
  have hjoined : ['|'].intercalate (s.splitOn '|') = s := List.intercalate_splitOn '|'
  rw [← hjoined] at hcomma
  rcases mem_of_mem_intercalate hcomma with hjoint | ⟨p, hp, hcomma⟩
  · revert hjoint
    decide
  · obtain ⟨flag, hflag⟩ := (of_addPieces h).1 p hp
    exact comma_of_ofPiece hflag hcomma

/-- A text without commas has the same pieces for both readers. -/
theorem listPieces_of_comma {s : List Char} (h : ',' ∉ s) : listPieces s = s.splitOn '|' := by
  rw [listPieces, List.splitOn_eq_splitOnP]
  apply splitOnP_congr
  intro c hc
  have hne : c ≠ ',' := by
    rintro rfl
    exact h hc
  simp [isSeparator, hne]

theorem ofFlagList_of_ofText {s : List Char} {m : EventMask} (h : ofText s = .ok m) :
    ofFlagList s = match (words s).find? isNumber with
      | some w => .error ⟨String.ofList w⟩
      | none => .ok m := by
  rcases ofText_cases h with ⟨hblank, rfl⟩ | hpieces
  · have hall := (Text.trim_eq_nil_iff s).mp hblank
    have hcomma : ',' ∉ s := fun hc => absurd (hall ',' hc) (by decide)
    have hone : s.splitOn '|' = [s] :=
      List.splitOn_eq_singleton fun hc => absurd (hall '|' hc) (by decide)
    have hlist : ofFlagList s = .ok empty := by
      show addFlags (listPieces s) empty = _
      rw [listPieces_of_comma hcomma, hone, addFlags_cons_of_flag (flagOf?_of_blank hall)]
      rfl
    rw [hlist, words, hone, List.map_singleton, hblank]
    rfl
  · show addFlags (listPieces s) empty = _
    rw [listPieces_of_comma (comma_of_addPieces hpieces)]
    exact addFlags_of_addPieces hpieces

/-- The written form of a mask without other bits has no number in it. -/
theorem find?_words_toText {m : EventMask} (h : all.contains m = true) :
    (words m.toText.toList).find? isNumber = none := by
  have hrest : (m \ all).isEmpty = true := by
    rw [sdiff_eq_empty h]
    rfl
  have hx : 'x' ∉ m.toText.toList := by
    intro hx
    rw [toList_toText, flags, if_pos hrest, List.append_nil, List.map_map] at hx
    rcases mem_of_mem_intercalate hx with hjoint | ⟨name, hname, hx⟩
    · revert hjoint
      decide
    · obtain ⟨c, -, rfl⟩ := List.mem_map.mp hname
      revert hx
      cases c <;> decide
  rw [List.find?_eq_none]
  intro w hw hnumber
  obtain ⟨p, hp, rfl⟩ := List.mem_map.mp hw
  have hxw : 'x' ∈ Text.trim p := (List.isPrefixOf_iff_prefix.mp hnumber).subset (by simp)
  exact hx (mem_of_mem_splitOn hp ((Text.trim_sublist p).subset hxw)).1

/-! ### Masks that ask for no class -/

/-- Whether a piece is a number without the bits of any class. -/
def IsSpareNumber (w : List Char) : Prop :=
  ∃ digits bits, w = '0' :: 'x' :: digits ∧ hexWord? digits = some bits
    ∧ (EventMask.mk bits).classes = []

theorem classes_eq_nil_iff {a : EventMask} : a.classes = [] ↔ a.intersects all = false := by
  constructor
  · intro h
    have hknown := foldl_classes a
    rw [h] at hknown
    have hnone : a &&& all = empty := hknown.symm
    rw [intersects, hnone]
    rfl
  · intro h
    refine List.filter_eq_nil_iff.mpr fun k _ hk => ?_
    have hclass : (single k).intersects all = true := by cases k <;> decide
    rw [intersects_of_contains hk hclass] at h
    cases h

/-- A mask without classes and without other bits is empty. -/
theorem isEmpty_of_classes {a : EventMask} (hknown : all.contains a = true)
    (hnone : a.classes = []) : a.isEmpty = true := by
  rw [classes_eq_nil_iff, intersects, bits_and, BitVec.and_comm, contains_iff.mp hknown] at hnone
  rw [isEmpty]
  simpa using hnone

/-- A piece stands for no class exactly if it is such a number. -/
theorem isSpareNumber_of_ofPiece {p : List Char} {flag : EventMask} (h : ofPiece p = .ok flag) :
    IsSpareNumber (Text.trim p) ↔ flag.classes = [] := by
  rcases ofPiece_cases h with ⟨c, hname, rfl⟩ | ⟨digits, w, hnumber, hw, rfl⟩
  · have hclass : (single c).classes ≠ [] := by cases c <;> decide
    refine iff_of_false ?_ hclass
    rintro ⟨digits, -, hnumber, -⟩
    have hplain : isNumber (Text.trim p) = false := by
      rw [hname]
      cases c <;> decide
    rw [hnumber] at hplain
    cases hplain
  · rw [hnumber]
    constructor
    · rintro ⟨digits', w', hsame, hw', hnone⟩
      obtain rfl : digits = digits' := by simpa using hsame
      obtain rfl : w = w' := Option.some.inj (hw.symm.trans hw')
      exact hnone
    · intro hnone
      exact ⟨digits, w, rfl, hw, hnone⟩

/-- A written mask that is not empty asks for no class exactly if it is made of such numbers. -/
theorem classes_eq_nil_of_ofText {s : List Char} {m : EventMask} (h : ofText s = .ok m)
    (hm : m ≠ empty) : m.classes = [] ↔ ∀ w ∈ words s, IsSpareNumber w := by
  obtain ⟨hread, hunion⟩ := of_addPieces ((ofText_cases h).resolve_left fun hblank => hm hblank.2)
  have hnone : m.classes = [] ↔ ∀ p ∈ s.splitOn '|', ∀ flag, ofPiece p = .ok flag →
      flag.classes = [] := by
    have hempty : empty.intersects all = false := by decide
    simp only [hunion, classes_eq_nil_iff, intersects_foldl, hempty, Bool.false_or,
      List.any_eq_false, List.mem_filterMap, Bool.not_eq_true]
    constructor
    · intro hall p hp flag hflag
      exact hall flag ⟨p, hp, toOption_eq_some_iff.mpr hflag⟩
    · rintro hall flag ⟨p, hp, hflag⟩
      exact hall p hp flag (toOption_eq_some_iff.mp hflag)
  rw [hnone, words, List.forall_mem_map]
  refine forall₂_congr fun p hp => ?_
  obtain ⟨flag, hflag⟩ := hread p hp
  rw [isSpareNumber_of_ofPiece hflag]
  constructor
  · intro hall
    exact hall flag hflag
  · rintro hnone flag' hflag'
    obtain rfl := Except.ok.inj (hflag.symm.trans hflag')
    exact hnone

/-! ### Main statement -/

/-- **The two notations of masks agree.** A text that is a written mask is a list of flags for the
same mask if there is no number among its pieces. Otherwise the list is refused, and the leftmost
number, trimmed, is the error. So the written form of a mask is a list for that mask exactly when
all of its bits stand for classes. -/
theorem notations_agree :
    (∀ s m, ofText s = .ok m → ofFlagList s = match (words s).find? isNumber with
      | some w => .error ⟨String.ofList w⟩
      | none => .ok m)
      ∧ ∀ m : EventMask, ofFlagList m.toText.toList = .ok m ↔ all.contains m = true := by
  refine ⟨fun s m h => ofFlagList_of_ofText h, fun m => ⟨all_contains_of_ofFlagList, fun h => ?_⟩⟩
  rw [ofFlagList_of_ofText (ofText_toText m), find?_words_toText h]

/-- Names between odd blanks are one mask in both notations. Of two numbers the left one is the
error, in its own spelling. -/
theorem notations_agree_up_to_number :
    ofFlagList " SIZE|\u2003FILE_NAME".toList = .ok (single .fileName ||| single .size)
      ∧ ofFlagList "SIZE | 0x+4F | 0x1".toList = .error ⟨"0x+4F"⟩ := by
  obtain ⟨hread, -⟩ := notations_agree
  have hnames : ofText " SIZE|\u2003FILE_NAME".toList =
      .ok (single .fileName ||| single .size) := by decide
  have hnumbers : ofText "SIZE | 0x+4F | 0x1".toList = .ok ⟨0x4F⟩ := by decide
  exact ⟨(hread _ _ hnames).trans (by decide), (hread _ _ hnumbers).trans (by decide)⟩

end EventMask

end FileWatch

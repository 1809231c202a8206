import FileWatch.EventMask.TextForm
import FileWatch.Proofs.EventMask.Algebra
import FileWatch.Proofs.Text.Numerals
import Mathlib.Data.List.Basic

/-! # WrittenForm — a mask reads back as it is written

The written form of a mask is made of pieces, one for each of its classes and one for the bits that
stand for no class. Each piece reads as a flag, also with blanks around it (`IsPiece`); the text is
split where the pieces were joined (`addPieces_splitOn_intercalate`), and together the flags make
the mask (`foldl_flags`). So every mask, with whatever bits, reads back (`ofText_toText`).
-/

namespace FileWatch

namespace EventMask

/-- The classes of a mask make the part of it that is known. -/
theorem foldl_classes (a : EventMask) : (a.classes.map single).foldl (· ||| ·) empty = a.known := by
  have hstep (m : EventMask) (c : EventClass) :
      (if a.contains (single c) then m ||| single c else m) = m ||| (a &&& single c) := by
    rw [and_single]
    split
    · rfl
    · rw [or_empty]
  have hall : EventClass.all.foldl (fun m c => m ||| single c) empty = all := by decide
  rw [classes, List.foldl_map, List.foldl_filter]
  simp only [hstep]
  calc EventClass.all.foldl (fun m c => m ||| (a &&& single c)) empty
      = EventClass.all.foldl (fun m c => m ||| (a &&& single c)) (a &&& empty) := by
        rw [and_empty]
    _ = a &&& EventClass.all.foldl (fun m c => m ||| single c) empty :=
        List.foldl_hom (a &&& ·) fun m c => (and_or_distrib a m (single c)).symm
    _ = a.known := by rw [hall, known]

/-! ### Pieces -/

/-- Whether a piece of a text, which is one word, reads as a flag. -/
structure IsPiece (s : List Char) (flag : EventMask) : Prop where
  nonempty : s ≠ []
  unbarred : '|' ∉ s
  word : ∀ c ∈ s, Text.isBlank c = false
  read : ofPiece s = .ok flag

/-- A class and its name. -/
theorem isPiece_name (c : EventClass) : IsPiece c.name.toList (single c) := by
  cases c <;> exact ⟨by decide, by decide, Text.forall_mem_of_all (by decide), by decide⟩

/-- The digits of a number are no marks and no blanks. -/
theorem hexDigits_unmarked {n : Nat} {c : Char} (hc : c ∈ Text.hexDigits n) :
    c ≠ '|' ∧ c ≠ '+' ∧ Text.isBlank c = false := by
  have hall : ∀ d < 16, Nat.digitChar d ≠ '|' ∧ Nat.digitChar d ≠ '+'
      ∧ Text.isBlank (Nat.digitChar d) = false := by decide
  obtain ⟨d, hd, rfl⟩ := Text.exists_digitChar_of_mem (by decide) hc
  exact hall d hd

theorem hexWord?_hexDigits (w : BitVec 32) : hexWord? (Text.hexDigits w.toNat) = some w := by
  have hnumber := Text.hexNumber?_hexDigits w.toNat
  have hunmarked : ∀ c ∈ Text.hexDigits w.toNat, c ≠ '+' := fun c hc => (hexDigits_unmarked hc).2.1
  have hnonempty : Text.hexDigits w.toNat ≠ [] := Nat.toDigits_ne_nil
  have hlt : w.toNat < UInt32.size := w.isLt
  generalize Text.hexDigits w.toNat = digits at *
  unfold hexWord?
  split
  · exact absurd rfl (hunmarked '+' (List.mem_cons_self ..))
  · rw [if_neg (by simpa using hnonempty), hnumber]
    simp only [if_pos hlt, BitVec.ofNat_toNat, BitVec.setWidth_eq]

/-- A word and its number. -/
theorem isPiece_number (a : EventMask) :
    IsPiece ('0' :: 'x' :: Text.hexDigits a.bits.toNat) a := by
  have hword : ∀ c ∈ '0' :: 'x' :: Text.hexDigits a.bits.toNat, Text.isBlank c = false := by
    simp only [List.mem_cons]
    rintro c (rfl | rfl | hc)
    · decide
    · decide
    · exact (hexDigits_unmarked hc).2.2
  refine ⟨by simp, ?_, hword, ?_⟩
  · simp only [List.mem_cons, not_or]
    exact ⟨by decide, by decide, fun hbar => (hexDigits_unmarked hbar).1 rfl⟩
  · rw [ofPiece, Text.trim_of_no_blank hword]
    simp only [hexWord?_hexDigits]

/-- Blanks around a piece do not matter. -/
theorem ofPiece_append {left right : List Char} (hleft : ∀ c ∈ left, Text.isBlank c = true)
    (hright : ∀ c ∈ right, Text.isBlank c = true) (s : List Char) :
    ofPiece (left ++ s ++ right) = ofPiece s := by
  unfold ofPiece
  rw [Text.trim_append hleft hright]

/-! ### The text -/

/-- A text is split where its pieces were joined, and each piece adds its flag. -/
theorem addPieces_splitOn_intercalate {pieces : List (List Char × EventMask)}
    (hpieces : ∀ x ∈ pieces, IsPiece x.1 x.2) (hnonempty : pieces ≠ []) {left : List Char}
    (hleft : ∀ c ∈ left, c = ' ') (m : EventMask) :
    addPieces ((left ++ [' ', '|', ' '].intercalate (pieces.map Prod.fst)).splitOn '|') m =
      .ok ((pieces.map Prod.snd).foldl (· ||| ·) m) := by
  have hblank : ∀ t : List Char, (∀ c ∈ t, c = ' ') → ∀ c ∈ t, Text.isBlank c = true := by
    intro t ht c hc
    rw [ht c hc]
    decide
  have hunbarred : ∀ t : List Char, (∀ c ∈ t, c = ' ') → '|' ∉ t := fun t ht hc => by
    have hspace := ht '|' hc
    revert hspace
    decide
  have hspace : ∀ c ∈ [' '], c = ' ' := fun c hc => List.mem_singleton.mp hc
  -- `left` is what the split leaves before a piece: nothing, or the blank behind a bar
  induction pieces generalizing left m with
  | nil => exact absurd rfl hnonempty
  | cons first rest ih =>
    have hfirst := hpieces first (List.mem_cons_self ..)
    cases rest with
    | nil =>
      have hone : '|' ∉ left ++ first.1 := by
        simp only [List.mem_append, not_or]
        exact ⟨hunbarred left hleft, hfirst.unbarred⟩
      have hread : ofPiece (left ++ first.1) = .ok first.2 := by
        rw [← List.append_nil (left ++ first.1), ofPiece_append (hblank left hleft) (by simp)]
        exact hfirst.read
      rw [List.map_singleton, List.intercalate_singleton, List.splitOn_eq_singleton hone, addPieces,
        hread]
      rfl
    | cons second rest =>
      have hone : '|' ∉ left ++ first.1 ++ [' '] := by
        simp only [List.mem_append, not_or]
        exact ⟨⟨hunbarred left hleft, hfirst.unbarred⟩, hunbarred [' '] hspace⟩
      have hread : ofPiece (left ++ first.1 ++ [' ']) = .ok first.2 := by
        rw [ofPiece_append (hblank left hleft) (hblank [' '] hspace)]
        exact hfirst.read
      have hjoined : left ++ [' ', '|', ' '].intercalate ((first :: second :: rest).map Prod.fst) =
          (left ++ first.1 ++ [' ']) ++ '|' ::
            ([' '] ++ [' ', '|', ' '].intercalate ((second :: rest).map Prod.fst)) := by
        simp
      rw [hjoined, List.splitOn_append_cons_self_of_not_mem hone, addPieces, hread]
      exact ih (fun x hx => hpieces x (List.mem_cons_of_mem _ hx)) (by simp) hspace _

/-- The pieces of the written form, and the flags that they stand for. -/
def flags (a : EventMask) : List (List Char × EventMask) :=
  a.classes.map (fun c => (c.name.toList, single c))
    ++ if (a \ all).isEmpty then []
      else [('0' :: 'x' :: Text.hexDigits (a \ all).bits.toNat, a \ all)]

/-- A piece is the name of a class or the number of the other bits. -/
theorem mem_flags {a : EventMask} {x : List Char × EventMask} (hx : x ∈ a.flags) :
    (∃ c : EventClass, x = (c.name.toList, single c))
      ∨ x = ('0' :: 'x' :: Text.hexDigits (a \ all).bits.toNat, a \ all) := by
  rcases List.mem_append.mp hx with hx | hx
  · obtain ⟨c, -, rfl⟩ := List.mem_map.mp hx
    exact .inl ⟨c, rfl⟩
  · split at hx
    · cases hx
    · exact .inr (List.mem_singleton.mp hx)

theorem isPiece_of_mem_flags {a : EventMask} {x : List Char × EventMask} (hx : x ∈ a.flags) :
    IsPiece x.1 x.2 := by
  rcases mem_flags hx with ⟨c, rfl⟩ | rfl
  · exact isPiece_name c
  · exact isPiece_number (a \ all)

/-- The flags of a mask make the mask. -/
theorem foldl_flags (a : EventMask) : (a.flags.map Prod.snd).foldl (· ||| ·) empty = a := by
  have hclasses : (a.classes.map fun c => (c.name.toList, single c)).map Prod.snd =
      a.classes.map single := by
    rw [List.map_map]
    rfl
  rw [flags, List.map_append, List.foldl_append, hclasses, foldl_classes]
  split
  · rename_i hrest
    have hempty : a \ all = empty := ext (eq_of_beq hrest)
    have hknown := known_or_rest a
    rw [hempty, or_empty] at hknown
    exact hknown
  · exact known_or_rest a

theorem toList_toText (a : EventMask) :
    a.toText.toList = [' ', '|', ' '].intercalate (a.flags.map Prod.fst) := by
  rw [toText, String.toList_intercalate, textPieces, flags]
  congr 1
  simp only [List.map_append, List.map_map]
  congr 1
  split
  · rfl
  · simp

/-- A text that begins with a piece is not blank. -/
theorem not_blank_of_pieces {first : List Char × EventMask} (hfirst : IsPiece first.1 first.2)
    (rest : List (List Char × EventMask)) :
    (Text.trim ([' ', '|', ' '].intercalate ((first :: rest).map Prod.fst))).isEmpty = false := by
  obtain ⟨c, word, hword⟩ := List.exists_cons_of_ne_nil hfirst.nonempty
  have hblank : Text.isBlank c = false := hfirst.word c (by simp [hword])
  have hmem : c ∈ [' ', '|', ' '].intercalate ((first :: rest).map Prod.fst) := by
    cases rest <;> simp [hword]
  rw [List.isEmpty_eq_false_iff, ne_eq, Text.trim_eq_nil_iff]
  intro hall
  rw [hall c hmem] at hblank
  cases hblank

/-- **A mask reads back as it is written**, with the bits that stand for no class. -/
theorem ofText_toText (a : EventMask) : ofText a.toText.toList = .ok a := by
  have hpieces : ∀ x ∈ a.flags, IsPiece x.1 x.2 := fun x hx => isPiece_of_mem_flags hx
  have hflags := foldl_flags a
  rw [toList_toText, ofText]
  cases h : a.flags with
  | nil =>
    rw [h] at hflags
    exact congrArg _ hflags
  | cons first rest =>
    rw [h] at hpieces hflags
    have hread := addPieces_splitOn_intercalate hpieces (by simp)
      (nofun : ∀ c ∈ [], c = ' ') empty
    rw [not_blank_of_pieces (hpieces first (List.mem_cons_self ..)) rest]
    exact hread.trans (congrArg _ hflags)

end EventMask

end FileWatch

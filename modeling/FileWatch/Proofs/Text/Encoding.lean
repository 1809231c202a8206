import Mathlib.Tactic.SplitIfs
import Mathlib.Tactic.Set
import Mathlib.Data.List.Basic
import Mathlib.Data.List.TakeWhile
import FileWatch.Text.Utf8

/-! # Encoding — reading text is the inverse of encoding it

`IsLong` says what bytes an encoding of more than one byte is made of. These are exactly what is
cut off as a character above the ASCII range (`segment_of_isLong`, `segment_eq_char`), and exactly
the encodings of the characters there (`utf8EncodeChar_assemble`, `exists_isLong`). So a byte string
reads as a text just when it encodes that text (`decode?_eq_some_iff`), and the byte strings that
read as no text are those that are not valid.
-/

namespace FileWatch.Text

/-! ### Encodings of more than one byte -/

/-- Whether a byte goes on with an encoding. -/
def IsTrailing (b : UInt8) : Prop := 0x80 ≤ b.toNat ∧ b.toNat ≤ 0xBF

/-- The encodings of more than one byte: the first byte `b`, and those that may follow it. -/
inductive IsLong (b : UInt8) : List UInt8 → Prop
  | two {x : UInt8} (hb : 0xC2 ≤ b.toNat) (hb' : b.toNat < 0xE0) (hx : IsTrailing x) : IsLong b [x]
  | three {x y : UInt8} (hb : 0xE0 ≤ b.toNat) (hb' : b.toNat < 0xF0) (hx : IsTrailing x)
      (hy : IsTrailing y) (hlow : b.toNat = 0xE0 → 0xA0 ≤ x.toNat)
      (hhigh : b.toNat = 0xED → x.toNat ≤ 0x9F) : IsLong b [x, y]
  | four {x y z : UInt8} (hb : 0xF0 ≤ b.toNat) (hb' : b.toNat ≤ 0xF4) (hx : IsTrailing x)
      (hy : IsTrailing y) (hz : IsTrailing z) (hlow : b.toNat = 0xF0 → 0x90 ≤ x.toNat)
      (hhigh : b.toNat = 0xF4 → x.toNat ≤ 0x8F) : IsLong b [x, y, z]

/-- What the bytes after `b` must be for `b` to start a longer encoding of `n` further bytes whose
first is between `lo` and `hi`. -/
theorem continuation?_eq_some {b lo hi : UInt8} {n : Nat}
    (h : continuation? b = some (n, lo, hi)) :
    0x80 ≤ lo.toNat ∧ hi.toNat ≤ 0xBF ∧
      (n = 1 ∧ 0xC2 ≤ b.toNat ∧ b.toNat < 0xE0
        ∨ n = 2 ∧ 0xE0 ≤ b.toNat ∧ b.toNat < 0xF0
          ∧ (b.toNat = 0xE0 → 0xA0 ≤ lo.toNat) ∧ (b.toNat = 0xED → hi.toNat ≤ 0x9F)
        ∨ n = 3 ∧ 0xF0 ≤ b.toNat ∧ b.toNat ≤ 0xF4
          ∧ (b.toNat = 0xF0 → 0x90 ≤ lo.toNat) ∧ (b.toNat = 0xF4 → hi.toNat ≤ 0x8F)) := by
  unfold continuation? at h
  simp only [UInt8.lt_iff_toNat_lt, beq_iff_eq, ← UInt8.toNat_inj, UInt8.reduceToNat] at h
  split_ifs at h <;> cases h <;> simp <;> omega

theorem continuation?_two {b : UInt8} (hb : 0xC2 ≤ b.toNat) (hb' : b.toNat < 0xE0) :
    continuation? b = some (1, 0x80, 0xBF) := by
  unfold continuation?
  simp only [UInt8.lt_iff_toNat_lt, UInt8.reduceToNat]
  rw [if_neg (by omega), if_pos hb']

theorem continuation?_three {b x : UInt8} (hb : 0xE0 ≤ b.toNat) (hb' : b.toNat < 0xF0)
    (hx : IsTrailing x) (hlow : b.toNat = 0xE0 → 0xA0 ≤ x.toNat)
    (hhigh : b.toNat = 0xED → x.toNat ≤ 0x9F) :
    ∃ lo hi, continuation? b = some (2, lo, hi) ∧ lo ≤ x ∧ x ≤ hi := by
  obtain ⟨hx, hx'⟩ := hx
  unfold continuation?
  simp only [UInt8.lt_iff_toNat_lt, UInt8.le_iff_toNat_le, beq_iff_eq, ← UInt8.toNat_inj,
    UInt8.reduceToNat]
  rw [if_neg (by omega), if_neg (by omega)]
  by_cases h : b.toNat = 0xE0
  · rw [if_pos h]
    exact ⟨_, _, rfl, hlow h, hx'⟩
  · rw [if_neg h]
    by_cases h : b.toNat = 0xED
    · rw [if_pos h]
      exact ⟨_, _, rfl, hx, hhigh h⟩
    · rw [if_neg h, if_pos hb']
      exact ⟨_, _, rfl, hx, hx'⟩

theorem continuation?_four {b x : UInt8} (hb : 0xF0 ≤ b.toNat) (hb' : b.toNat ≤ 0xF4)
    (hx : IsTrailing x) (hlow : b.toNat = 0xF0 → 0x90 ≤ x.toNat)
    (hhigh : b.toNat = 0xF4 → x.toNat ≤ 0x8F) :
    ∃ lo hi, continuation? b = some (3, lo, hi) ∧ lo ≤ x ∧ x ≤ hi := by
  obtain ⟨hx, hx'⟩ := hx
  unfold continuation?
  simp only [UInt8.lt_iff_toNat_lt, UInt8.le_iff_toNat_le, beq_iff_eq, ← UInt8.toNat_inj,
    UInt8.reduceToNat]
  rw [if_neg (by omega), if_neg (by omega), if_neg (by omega), if_neg (by omega),
    if_neg (by omega)]
  by_cases h : b.toNat = 0xF0
  · rw [if_pos h]
    exact ⟨_, _, rfl, hlow h, hx'⟩
  · rw [if_neg h]
    by_cases h : b.toNat < 0xF4
    · rw [if_pos h]
      exact ⟨_, _, rfl, hx, hx'⟩
    · have h4 : b.toNat = 0xF4 := by omega
      rw [if_neg h, if_pos h4]
      exact ⟨_, _, rfl, hx, hhigh h4⟩

/-- The first of the bytes that follow is within the bounds that the byte before it sets, and the
others are trailing bytes. -/
theorem IsLong.exists_continuation {b : UInt8} {more : List UInt8} (h : IsLong b more) :
    ∃ lo hi x tail, more = x :: tail ∧ continuation? b = some (more.length, lo, hi)
      ∧ lo ≤ x ∧ x ≤ hi ∧ ∀ y ∈ tail, IsTrailing y := by
  cases h with
  | @two x hb hb' hx =>
    exact ⟨_, _, x, [], rfl, continuation?_two hb hb', hx.1, hx.2, by simp⟩
  | @three x y hb hb' hx hy hlow hhigh =>
    obtain ⟨lo, hi, hc, hlo, hhi⟩ := continuation?_three hb hb' hx hlow hhigh
    exact ⟨lo, hi, x, [y], rfl, hc, hlo, hhi, by simpa using hy⟩
  | @four x y z hb hb' hx hy hz hlow hhigh =>
    obtain ⟨lo, hi, hc, hlo, hhi⟩ := continuation?_four hb hb' hx hlow hhigh
    exact ⟨lo, hi, x, [y, z], rfl, hc, hlo, hhi, by simp [hy, hz]⟩

theorem isLong_of_continuation {b lo hi x : UInt8} {tail : List UInt8}
    (hc : continuation? b = some ((x :: tail).length, lo, hi)) (hlo : lo ≤ x) (hhi : x ≤ hi)
    (htail : ∀ y ∈ tail, IsTrailing y) : IsLong b (x :: tail) := by
  rw [UInt8.le_iff_toNat_le] at hlo hhi
  obtain ⟨hlow, hhigh, hcase⟩ := continuation?_eq_some hc
  have hx : IsTrailing x := ⟨by omega, by omega⟩
  rw [List.length_cons] at hcase
  rcases hcase with ⟨hn, hb, hb'⟩ | ⟨hn, hb, hb', h1, h2⟩ | ⟨hn, hb, hb', h1, h2⟩
  · obtain rfl := List.length_eq_zero_iff.mp (by omega : tail.length = 0)
    exact .two hb hb' hx
  · obtain ⟨y, rfl⟩ := List.length_eq_one_iff.mp (by omega : tail.length = 1)
    refine .three hb hb' hx (htail y (by simp)) ?_ ?_
    · intro h
      have := h1 h
      omega
    · intro h
      have := h2 h
      omega
  · obtain ⟨y, z, rfl⟩ := List.length_eq_two.mp (by omega : tail.length = 2)
    refine .four hb hb' hx (htail y (by simp)) (htail z (by simp)) ?_ ?_
    · intro h
      have := h1 h
      omega
    · intro h
      have := h2 h
      omega

theorem IsLong.first_ge {b : UInt8} {more : List UInt8} (h : IsLong b more) : 0xC2 ≤ b.toNat := by
  cases h <;> omega

/-! ### How they are cut off -/

/-- A longer encoding is cut off whole, as the character it assembles. -/
theorem segment_of_isLong {b : UInt8} {more : List UInt8} (h : IsLong b more) (rest : List UInt8) :
    segment b (more ++ rest) = (.char (assemble b more), more.length) := by
  obtain ⟨lo, hi, x, tail, rfl, hc, hlo, hhi, htail⟩ := h.exists_continuation
  have hb : ¬ b < 0x80 := by
    rw [UInt8.lt_iff_toNat_lt]
    exact Nat.not_lt.mpr (Nat.le_trans (by decide) h.first_ge)
  have htake : (((tail ++ rest).take ((x :: tail).length - 1)).takeWhile
      fun y => 0x80 ≤ y && y ≤ 0xBF) = tail := by
    rw [List.length_cons, Nat.add_sub_cancel, List.take_left, List.takeWhile_eq_self_iff]
    intro y hy
    simpa [UInt8.le_iff_toNat_le, IsTrailing] using htail y hy
  simp only [segment, List.cons_append, hc]
  rw [if_neg hb, if_pos ⟨hlo, hhi⟩, htake, if_pos rfl]

/-- What is cut off as a character is an ASCII byte or a longer encoding. -/
theorem segment_eq_char {b : UInt8} {rest : List UInt8} {c : Char} {n : Nat}
    (h : segment b rest = (.char c, n)) :
    b.toNat < 0x80 ∧ c = Char.ofNat b.toNat ∧ n = 0
      ∨ ∃ more tail, rest = more ++ tail ∧ n = more.length ∧ IsLong b more ∧ c = assemble b more := by
  unfold segment at h
  by_cases hb : b < 0x80
  · rw [if_pos hb] at h
    cases h
    exact .inl ⟨UInt8.lt_iff_toNat_lt.mp hb, rfl, rfl⟩
  · rw [if_neg hb] at h
    right
    split at h
    case h_2 => cases h
    case h_1 m lo hi x tail hc =>
      by_cases hbounds : lo ≤ x ∧ x ≤ hi
      · rw [if_pos hbounds] at h
        set taken := (tail.take (m - 1)).takeWhile fun y => 0x80 ≤ y && y ≤ 0xBF with htaken
        by_cases hlen : (x :: taken).length = m
        · rw [if_pos hlen] at h
          cases h
          have hprefix : taken <+: tail :=
            (List.takeWhile_prefix _).trans (List.take_prefix _ _)
          obtain ⟨left, hleft⟩ := hprefix
          refine ⟨x :: taken, left, by rw [← hleft]; rfl, hlen.symm, ?_, rfl⟩
          refine isLong_of_continuation (by rw [hlen]; exact hc) hbounds.1 hbounds.2 ?_
          intro y hy
          simpa [UInt8.le_iff_toNat_le, IsTrailing] using List.mem_takeWhile_imp hy
        · rw [if_neg hlen] at h
          cases h
      · rw [if_neg hbounds] at h
        cases h

/-! ### The characters that they encode -/

theorem toNat_ofNat {n : Nat} (h : n.isValidChar) : (Char.ofNat n).toNat = n := by
  rw [Char.ofNat, dif_pos h]
  rfl

theorem utf8EncodeChar_two {c : Char} (h : 0x7f < c.toNat) (h' : c.toNat ≤ 0x7ff) :
    String.utf8EncodeChar c
      = [UInt8.ofNat (c.toNat / 64 % 32 + 0xc0), UInt8.ofNat (c.toNat % 64 + 0x80)] := by
  show (if c.toNat ≤ 0x7f then _ else if c.toNat ≤ 0x7ff then _ else _) = _
  rw [if_neg (by omega), if_pos h']
  rfl

theorem utf8EncodeChar_three {c : Char} (h : 0x7ff < c.toNat) (h' : c.toNat ≤ 0xffff) :
    String.utf8EncodeChar c
      = [UInt8.ofNat (c.toNat / 4096 % 16 + 0xe0), UInt8.ofNat (c.toNat / 64 % 64 + 0x80),
          UInt8.ofNat (c.toNat % 64 + 0x80)] := by
  show (if c.toNat ≤ 0x7f then _ else if c.toNat ≤ 0x7ff then _ else if c.toNat ≤ 0xffff then _
    else _) = _
  rw [if_neg (by omega), if_neg (by omega), if_pos h']
  rfl

theorem utf8EncodeChar_four {c : Char} (h : 0xffff < c.toNat) :
    String.utf8EncodeChar c
      = [UInt8.ofNat (c.toNat / 262144 % 8 + 0xf0), UInt8.ofNat (c.toNat / 4096 % 64 + 0x80),
          UInt8.ofNat (c.toNat / 64 % 64 + 0x80), UInt8.ofNat (c.toNat % 64 + 0x80)] := by
  show (if c.toNat ≤ 0x7f then _ else if c.toNat ≤ 0x7ff then _ else if c.toNat ≤ 0xffff then _
    else _) = _
  rw [if_neg (by omega), if_neg (by omega), if_neg (by omega)]
  rfl

theorem assemble_two (b x : UInt8) :
    assemble b [x] = Char.ofNat (b.toNat % 32 * 64 + x.toNat % 64) := rfl

theorem assemble_three (b x y : UInt8) :
    assemble b [x, y]
      = Char.ofNat ((b.toNat % 16 * 64 + x.toNat % 64) * 64 + y.toNat % 64) := by
  simp [assemble]

theorem assemble_four (b x y z : UInt8) :
    assemble b [x, y, z]
      = Char.ofNat (((b.toNat % 8 * 64 + x.toNat % 64) * 64 + y.toNat % 64) * 64
          + z.toNat % 64) := by
  simp [assemble]

theorem ofNat_eq {n : Nat} {b : UInt8} (h : n = b.toNat) : UInt8.ofNat n = b := by
  rw [h, UInt8.ofNat_toNat]

/-- A longer encoding encodes the character that it assembles. -/
theorem utf8EncodeChar_assemble {b : UInt8} {more : List UInt8} (h : IsLong b more) :
    String.utf8EncodeChar (assemble b more) = b :: more := by
  cases h with
  | @two x hb hb' hx =>
    obtain ⟨hx, hx'⟩ := hx
    have hn := toNat_ofNat (n := b.toNat % 32 * 64 + x.toNat % 64) (.inl (by omega))
    rw [← assemble_two] at hn
    rw [utf8EncodeChar_two (by omega) (by omega), hn, ofNat_eq (b := b) (by omega),
      ofNat_eq (b := x) (by omega)]
  | @three x y hb hb' hx hy hlow hhigh =>
    obtain ⟨hx, hx'⟩ := hx
    obtain ⟨hy, hy'⟩ := hy
    -- the bound after 0xED keeps the surrogates out
    have hvalid : ((b.toNat % 16 * 64 + x.toNat % 64) * 64 + y.toNat % 64).isValidChar := by
      unfold Nat.isValidChar
      omega
    have hn := toNat_ofNat hvalid
    rw [← assemble_three] at hn
    rw [utf8EncodeChar_three (by omega) (by omega), hn, ofNat_eq (b := b) (by omega),
      ofNat_eq (b := x) (by omega), ofNat_eq (b := y) (by omega)]
  | @four x y z hb hb' hx hy hz hlow hhigh =>
    obtain ⟨hx, hx'⟩ := hx
    obtain ⟨hy, hy'⟩ := hy
    obtain ⟨hz, hz'⟩ := hz
    have hvalid : (((b.toNat % 8 * 64 + x.toNat % 64) * 64 + y.toNat % 64) * 64
        + z.toNat % 64).isValidChar := by
      unfold Nat.isValidChar
      omega
    have hn := toNat_ofNat hvalid
    rw [← assemble_four] at hn
    rw [utf8EncodeChar_four (by omega), hn, ofNat_eq (b := b) (by omega),
      ofNat_eq (b := x) (by omega), ofNat_eq (b := y) (by omega), ofNat_eq (b := z) (by omega)]

/-- The value of a byte that goes on with an encoding. -/
theorem toNat_trailing (k : Nat) : (UInt8.ofNat (k % 64 + 0x80)).toNat = k % 64 + 0x80 :=
  Nat.mod_eq_of_lt (by omega)

theorem isTrailing_trailing (k : Nat) : IsTrailing (UInt8.ofNat (k % 64 + 0x80)) := by
  unfold IsTrailing
  rw [toNat_trailing]
  omega

/-- A character above the ASCII range has a longer encoding, which assembles it. -/
theorem exists_isLong {c : Char} (h : 0x7f < c.toNat) :
    ∃ b more, String.utf8EncodeChar c = b :: more ∧ IsLong b more ∧ assemble b more = c := by
  have hvalid : c.toNat < 0xD800 ∨ 0xDFFF < c.toNat ∧ c.toNat < 0x110000 := c.valid
  by_cases h2 : c.toNat ≤ 0x7ff
  · have hb : (UInt8.ofNat (c.toNat / 64 % 32 + 0xc0)).toNat = c.toNat / 64 % 32 + 0xc0 :=
      Nat.mod_eq_of_lt (by omega)
    refine ⟨_, _, utf8EncodeChar_two h h2,
      .two (by rw [hb]; omega) (by rw [hb]; omega) (isTrailing_trailing _), ?_⟩
    have hc : c.toNat = (c.toNat / 64 % 32 + 0xc0) % 32 * 64 + (c.toNat % 64 + 0x80) % 64 := by
      omega
    rw [assemble_two, hb, toNat_trailing, ← hc, Char.ofNat_toNat]
  · by_cases h3 : c.toNat ≤ 0xffff
    · have hb : (UInt8.ofNat (c.toNat / 4096 % 16 + 0xe0)).toNat = c.toNat / 4096 % 16 + 0xe0 :=
        Nat.mod_eq_of_lt (by omega)
      refine ⟨_, _, utf8EncodeChar_three (by omega) h3,
        .three (by rw [hb]; omega) (by rw [hb]; omega) (isTrailing_trailing _)
          (isTrailing_trailing _) (by rw [hb, toNat_trailing]; omega)
          (by rw [hb, toNat_trailing]; omega), ?_⟩
      have hc : c.toNat = ((c.toNat / 4096 % 16 + 0xe0) % 16 * 64
          + (c.toNat / 64 % 64 + 0x80) % 64) * 64 + (c.toNat % 64 + 0x80) % 64 := by omega
      rw [assemble_three, hb, toNat_trailing, toNat_trailing, ← hc, Char.ofNat_toNat]
    · have hb : (UInt8.ofNat (c.toNat / 262144 % 8 + 0xf0)).toNat = c.toNat / 262144 % 8 + 0xf0 :=
        Nat.mod_eq_of_lt (by omega)
      refine ⟨_, _, utf8EncodeChar_four (by omega),
        .four (by rw [hb]; omega) (by rw [hb]; omega) (isTrailing_trailing _)
          (isTrailing_trailing _) (isTrailing_trailing _) (by rw [hb, toNat_trailing]; omega)
          (by rw [hb, toNat_trailing]; omega), ?_⟩
      have hc : c.toNat = (((c.toNat / 262144 % 8 + 0xf0) % 8 * 64
          + (c.toNat / 4096 % 64 + 0x80) % 64) * 64 + (c.toNat / 64 % 64 + 0x80) % 64) * 64
          + (c.toNat % 64 + 0x80) % 64 := by omega
      rw [assemble_four, hb, toNat_trailing, toNat_trailing, toNat_trailing, ← hc,
        Char.ofNat_toNat]

/-! ### Texts -/

/-- The encoding of a character is cut off whole, as that character. -/
theorem segments_utf8EncodeChar (c : Char) (rest : List UInt8) :
    segments (String.utf8EncodeChar c ++ rest) = .char c :: segments rest := by
  by_cases h : c.toNat ≤ 0x7f
  · have hbyte : (UInt8.ofNat c.toNat).toNat = c.toNat := Nat.mod_eq_of_lt (by omega)
    have hlt : UInt8.ofNat c.toNat < 0x80 := by
      rw [UInt8.lt_iff_toNat_lt, hbyte]
      exact Nat.lt_succ_of_le h
    rw [utf8EncodeChar_of_ascii (by omega), List.singleton_append, segments_cons,
      segment_of_ascii hlt, hbyte, Char.ofNat_toNat, List.drop_zero]
  · obtain ⟨b, more, hb, hlong, hc⟩ := exists_isLong (by omega : 0x7f < c.toNat)
    rw [hb, List.cons_append, segments_cons, segment_of_isLong hlong, hc, List.drop_left]

/-- A text is read back from its encoding. -/
theorem decode?_encode (s : List Char) : decode? (encode s) = some s := by
  induction s with
  | nil => rfl
  | cons c s ih =>
    rw [decode?] at ih ⊢
    rw [encode_cons, segments_utf8EncodeChar, List.mapM_cons, ih]
    rfl

/-- A character that is cut off stands there in its encoding. -/
theorem utf8EncodeChar_of_segment {b : UInt8} {rest : List UInt8} {c : Char} {n : Nat}
    (h : segment b rest = (.char c, n)) : String.utf8EncodeChar c ++ rest.drop n = b :: rest := by
  rcases segment_eq_char h with ⟨hb, rfl, rfl⟩ | ⟨more, tail, rfl, rfl, hlong, rfl⟩
  · have hc : (Char.ofNat b.toNat).toNat = b.toNat := toNat_ofNat (.inl (by omega))
    rw [utf8EncodeChar_of_ascii (by omega), hc, UInt8.ofNat_toNat, List.drop_zero]
    rfl
  · rw [utf8EncodeChar_assemble hlong, List.drop_left]
    rfl

/-- The text of a byte string that is not empty: its first character, and the text of what that
leaves. -/
theorem decode?_cons (b : UInt8) (rest : List UInt8) :
    decode? (b :: rest) = match segment b rest with
      | (.char c, n) => (decode? (rest.drop n)).map (c :: ·)
      | (.broken _, _) => none := by
  rw [decode?, segments_cons, List.mapM_cons]
  rcases segment b rest with ⟨c | bytes, n⟩
  · simp only [decode?, Option.map_eq_bind]
    rfl
  · rfl

/-- What reads as a text is the encoding of that text. -/
theorem encode_of_decode? {bytes : List UInt8} {s : List Char} (h : decode? bytes = some s) :
    encode s = bytes := by
  induction s generalizing bytes with
  | nil =>
    cases bytes with
    | nil => rfl
    | cons b rest =>
      rw [decode?_cons] at h
      split at h <;> simp at h
  | cons c s ih =>
    cases bytes with
    | nil => cases h
    | cons b rest =>
      rw [decode?_cons] at h
      split at h
      · next c' n hseg =>
        obtain ⟨t, ht, heq⟩ := Option.map_eq_some_iff.mp h
        cases heq
        rw [encode_cons, ih ht, utf8EncodeChar_of_segment hseg]
      · cases h

/-- Text is read from exactly its encoding. -/
theorem decode?_eq_some_iff {bytes : List UInt8} {s : List Char} :
    decode? bytes = some s ↔ encode s = bytes :=
  ⟨encode_of_decode?, fun h => h ▸ decode?_encode s⟩

/-- The byte strings that read as a text are the valid ones. -/
theorem decode?_isSome_iff {bytes : List UInt8} :
    (decode? bytes).isSome ↔ bytes.toByteArray.IsValidUTF8 := by
  rw [Option.isSome_iff_exists]
  constructor
  · rintro ⟨s, h⟩
    exact ⟨s, by rw [← encode_of_decode? h]; rfl⟩
  · rintro ⟨s, h⟩
    exact ⟨s, decode?_eq_some_iff.mpr (List.toByteArray_inj.mp h).symm⟩

end FileWatch.Text

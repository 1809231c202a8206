/-! # Utf8 — reading bytes as text

A byte string is cut into `Segment`s: the characters that it encodes, and between them the
longest stretches that begin a character and break off. `decode?` reads a byte string that
encodes text throughout; `decodeLossy` reads any, with U+FFFD in place of each broken stretch.
ASCII text is read back from its encoding (`decode?_encode_of_ascii`).
-/

namespace FileWatch.Text

/-- What a byte string is made of: characters, and stretches of bytes that encode none. -/
inductive Segment where
  | char (c : Char)
  | broken (bytes : List UInt8)
  deriving DecidableEq, Repr

/-- How an encoding goes on after its first byte: the number of bytes that follow, and the bounds
of the first of them. `none` for a byte that starts no longer encoding. -/
def continuation? (b : UInt8) : Option (Nat × UInt8 × UInt8) :=
  if b < 0xC2 then none
  else if b < 0xE0 then some (1, 0x80, 0xBF)
  else if b == 0xE0 then some (2, 0xA0, 0xBF)
  else if b == 0xED then some (2, 0x80, 0x9F)
  else if b < 0xF0 then some (2, 0x80, 0xBF)
  else if b == 0xF0 then some (3, 0x90, 0xBF)
  else if b < 0xF4 then some (3, 0x80, 0xBF)
  else if b == 0xF4 then some (3, 0x80, 0x8F)
  else none

/-- The character whose encoding is the first byte `b` and the bytes `more`. -/
def assemble (b : UInt8) (more : List UInt8) : Char :=
  Char.ofNat (more.foldl (fun n c => n * 64 + c.toNat % 64) (b.toNat % (64 >>> more.length)))

/-- The segment that starts with `b`, and how many bytes of `rest` belong to it. -/
def segment (b : UInt8) (rest : List UInt8) : Segment × Nat :=
  if b < 0x80 then (.char (Char.ofNat b.toNat), 0)
  else match continuation? b, rest with
    | some (n, lo, hi), c :: rest =>
      if lo ≤ c ∧ c ≤ hi then
        let more := c :: (rest.take (n - 1)).takeWhile fun x => 0x80 ≤ x && x ≤ 0xBF
        if more.length = n then (.char (assemble b more), n)
        else (.broken (b :: more), more.length)
      else (.broken [b], 0)
    | _, _ => (.broken [b], 0)

/-- The segments of a byte string after its first `skip` bytes. -/
def segmentsAfter : Nat → List UInt8 → List Segment
  | _, [] => []
  | skip + 1, _ :: rest => segmentsAfter skip rest
  | 0, b :: rest => (segment b rest).1 :: segmentsAfter (segment b rest).2 rest

/-- Cuts a byte string into its segments, first to last. -/
def segments (bytes : List UInt8) : List Segment := segmentsAfter 0 bytes

theorem segmentsAfter_eq_drop (skip : Nat) (bytes : List UInt8) :
    segmentsAfter skip bytes = segments (bytes.drop skip) := by
  induction skip generalizing bytes with
  | zero => rfl
  | succ n ih => cases bytes with
    | nil => simp [segments, segmentsAfter]
    | cons b rest => exact ih rest

/-- The first segment, and the segments of what it leaves. -/
theorem segments_cons (b : UInt8) (rest : List UInt8) :
    segments (b :: rest)
      = (segment b rest).1 :: segments (rest.drop (segment b rest).2) := by
  rw [← segmentsAfter_eq_drop]
  rfl

/-- The text that the bytes encode, if they encode text throughout. -/
def decode? (bytes : List UInt8) : Option (List Char) :=
  (segments bytes).mapM fun
    | .char c => some c
    | .broken _ => none

/-- The text that the bytes encode, with U+FFFD for each broken stretch. -/
def decodeLossy (bytes : List UInt8) : List Char :=
  (segments bytes).map fun
    | .char c => c
    | .broken _ => '\uFFFD'

/-- The encoding of a text. -/
def encode (text : List Char) : List UInt8 := text.flatMap String.utf8EncodeChar

@[simp] theorem encode_nil : encode [] = [] := rfl

@[simp] theorem encode_cons (c : Char) (s : List Char) :
    encode (c :: s) = String.utf8EncodeChar c ++ encode s := rfl

@[simp] theorem encode_append (s t : List Char) : encode (s ++ t) = encode s ++ encode t := by
  simp [encode]

theorem segment_of_ascii {b : UInt8} (h : b < 0x80) (rest : List UInt8) :
    segment b rest = (.char (Char.ofNat b.toNat), 0) := by
  unfold segment
  exact if_pos h

theorem utf8EncodeChar_of_ascii {c : Char} (h : c.toNat < 128) :
    String.utf8EncodeChar c = [UInt8.ofNat c.toNat] :=
  if_pos (Nat.le_of_lt_succ h)

/-- A text of ASCII characters is read back from its encoding. -/
theorem decode?_encode_of_ascii {s : List Char} (h : ∀ c ∈ s, c.toNat < 128) :
    decode? (encode s) = some s := by
  induction s with
  | nil => rfl
  | cons c s ih =>
    have hc : c.toNat < 128 := h c (List.mem_cons_self ..)
    have hbyte : (UInt8.ofNat c.toNat).toNat = c.toNat :=
      Nat.mod_eq_of_lt (Nat.lt_trans hc (by decide))
    have hbound : UInt8.ofNat c.toNat < 0x80 := by
      rw [UInt8.lt_iff_toNat_lt, hbyte]
      exact hc
    have hrest := ih fun x hx => h x (List.mem_cons_of_mem _ hx)
    rw [decode?] at hrest ⊢
    rw [encode_cons, utf8EncodeChar_of_ascii hc, List.singleton_append, segments_cons,
      segment_of_ascii hbound, hbyte, Char.ofNat_toNat, List.drop_zero, List.mapM_cons, hrest]
    rfl

end FileWatch.Text

import FileWatch.CommandLine.Run
import FileWatch.Proofs.EventMask.WrittenForm
import FileWatch.Proofs.Text.Splitting
import FileWatch.Proofs.Toml.WrittenLine

/-! # RoundTrip — settings read back as they are written

The document of some settings has one line for each setting (`toText_of_writable`). Each line can be
read (`isReadable_of_mem_written`), and the members that are read set every setting to what it was
(`ofMembers?_written`). So a document that can be written gives back the settings, or the first of
them that is out of its range (`ofText_of_toText`). It is ASCII text (`ascii_of_mem_written`), so a
file can hold it as it is.
-/

namespace FileWatch

open Toml (WrittenMember isPlain)

/-! ### Characters that need no escapes -/

/-- The written form of a mask is ASCII text that needs no escapes. -/
theorem EventMask.plain_of_mem_toText {a : EventMask} {c : Char} (h : c ∈ a.toText.toList) :
    isPlain c = true ∧ c.toNat < 128 := by
  have hnames : ∀ k : EventClass, ∀ c ∈ k.name.toList, isPlain c = true ∧ c.toNat < 128 := by
    intro k
    cases k <;> exact Text.forall_mem_of_all (by decide)
  have hdigits : ∀ d < 16, isPlain (Nat.digitChar d) = true ∧ (Nat.digitChar d).toNat < 128 := by
    decide
  have hjoint : ∀ c ∈ [' ', '|', ' '], isPlain c = true ∧ c.toNat < 128 :=
    Text.forall_mem_of_all (by decide)
  rw [toList_toText] at h
  rcases mem_of_mem_intercalate h with h | ⟨w, hw, h⟩
  · exact hjoint c h
  · obtain ⟨x, hx, rfl⟩ := List.mem_map.mp hw
    rcases mem_flags hx with ⟨k, rfl⟩ | rfl
    · exact hnames k c h
    · simp only [List.mem_cons] at h
      rcases h with rfl | rfl | h
      · decide
      · decide
      · obtain ⟨d, hd, rfl⟩ := Text.exists_digitChar_of_mem (by decide) h
        exact hdigits d hd

namespace Config

/-! ### The lines of a document -/

/-- The members of the document of some settings, as they are written. -/
def written (c : Config) : List WrittenMember :=
  (c.backend.map fun k =>
      ⟨"backend".toList, '"' :: k.name.toList ++ ['"'], .string k.name.toList⟩).toList
    ++ [⟨"events".toList, '"' :: c.events.toText.toList ++ ['"'], .string c.events.toText.toList⟩,
      ⟨"recursive".toList, (booleanText c.recursive).toList, .boolean c.recursive⟩,
      ⟨"buffer_size".toList, Nat.toDigits 10 c.bufferSize.toNat, .integer c.bufferSize.toNat⟩,
      ⟨"debounce_ms".toList, Nat.toDigits 10 c.debounceMs.toNat, .integer c.debounceMs.toNat⟩,
      ⟨"poll_interval_ms".toList, Nat.toDigits 10 c.pollIntervalMs.toNat,
        .integer c.pollIntervalMs.toNat⟩]

theorem toText_of_writable {c : Config} (h : c.isWritable = true) :
    ∃ s, c.toText = .ok s ∧ s.toList = c.written.flatMap WrittenMember.line := by
  refine ⟨_, by rw [toText, h]; rfl, ?_⟩
  cases hb : c.backend with
  | none => simp [hb, written, line, WrittenMember.line, quoted]
  | some k => simp [hb, written, line, WrittenMember.line, quoted]

theorem toText_of_not_writable {c : Config} (h : c.isWritable = false) :
    c.toText = .error .serialize := by
  rw [toText, h]
  rfl

theorem isWritable_iff (c : Config) :
    c.isWritable = true ↔
      c.debounceMs.toNat ≤ Toml.largest ∧ c.pollIntervalMs.toNat ≤ Toml.largest := by
  simp [isWritable]

theorem readsAs_boolean (b : Bool) : Toml.ReadsAs (booleanText b).toList (.boolean b) := by
  cases b
  · exact Toml.readsAs_false
  · exact Toml.readsAs_true

theorem plain_of_mem_name {k : BackendKind} {c : Char} (h : c ∈ k.name.toList) :
    isPlain c = true ∧ c.toNat < 128 := by
  have hall : ∀ c ∈ k.name.toList, isPlain c = true ∧ c.toNat < 128 := by
    cases k <;> exact Text.forall_mem_of_all (by decide)
  exact hall c h

theorem isReadable_of_bare {key : String} (hne : key.toList ≠ [])
    (hbare : key.toList.all Toml.isBare = true) {text : List Char} {value : Toml.Node}
    (h : Toml.ReadsAs text value) : (WrittenMember.mk key.toList text value).IsReadable :=
  ⟨hne, List.all_eq_true.mp hbare, h⟩

/-- Every line of a document that can be written can be read. -/
theorem isReadable_of_mem_written {c : Config} (h : c.isWritable = true) {m : WrittenMember}
    (hm : m ∈ c.written) : m.IsReadable := by
  obtain ⟨hdebounce, hpoll⟩ := (isWritable_iff c).mp h
  have hbuffer : c.bufferSize.toNat ≤ Toml.largest :=
    Nat.le_trans (Nat.le_of_lt c.bufferSize.toNat_lt) (by decide)
  rcases List.mem_append.mp hm with hm | hm
  · rw [Option.mem_toList, Option.map_eq_some_iff] at hm
    obtain ⟨k, -, rfl⟩ := hm
    exact isReadable_of_bare (by decide) (by decide)
      (Toml.readsAs_string fun _ hc => (plain_of_mem_name hc).1)
  · simp only [List.mem_cons, List.not_mem_nil, or_false] at hm
    rcases hm with rfl | rfl | rfl | rfl | rfl
    · exact isReadable_of_bare (by decide) (by decide)
        (Toml.readsAs_string fun _ hc => (EventMask.plain_of_mem_toText hc).1)
    · exact isReadable_of_bare (by decide) (by decide) (readsAs_boolean c.recursive)
    · exact isReadable_of_bare (by decide) (by decide) (Toml.readsAs_number hbuffer)
    · exact isReadable_of_bare (by decide) (by decide) (Toml.readsAs_number hdebounce)
    · exact isReadable_of_bare (by decide) (by decide) (Toml.readsAs_number hpoll)

theorem ascii_of_mem_quoted {s : List Char} (h : ∀ c ∈ s, isPlain c = true ∧ c.toNat < 128)
    {c : Char} (hc : c ∈ '"' :: s ++ ['"']) : c.toNat < 128 := by
  simp only [List.cons_append, List.mem_cons, List.mem_append, List.not_mem_nil, or_false] at hc
  rcases hc with rfl | hc | rfl
  · decide
  · exact (h c hc).2
  · decide

theorem ascii_of_mem_numeral {n : Nat} {c : Char} (hc : c ∈ Nat.toDigits 10 n) :
    c.toNat < 128 := by
  have hdigits : ∀ d < 10, (Nat.digitChar d).toNat < 128 := by decide
  obtain ⟨d, hd, rfl⟩ := Text.exists_digitChar_of_mem (by decide) hc
  exact hdigits d hd

theorem ascii_of_mem_boolean {b : Bool} {x : Char} (hx : x ∈ (booleanText b).toList) :
    x.toNat < 128 := by
  have hall : ∀ x ∈ (booleanText b).toList, x.toNat < 128 := by
    cases b <;> exact Text.forall_mem_of_all (by decide)
  exact hall x hx

theorem ascii_of_line {key : String} (hkey : ∀ x ∈ key.toList, x.toNat < 128) {text : List Char}
    (htext : ∀ x ∈ text, x.toNat < 128) (value : Toml.Node) :
    ∀ x ∈ (WrittenMember.mk key.toList text value).line, x.toNat < 128 := by
  have hjoint : ∀ x ∈ [' ', '=', ' '], x.toNat < 128 := Text.forall_mem_of_all (by decide)
  have hend : ∀ x ∈ ['\n'], x.toNat < 128 := Text.forall_mem_of_all (by decide)
  intro x hx
  simp only [WrittenMember.line, List.mem_append] at hx
  rcases hx with ((hx | hx) | hx) | hx
  · exact hkey x hx
  · exact hjoint x hx
  · exact htext x hx
  · exact hend x hx

/-- The document of some settings is ASCII text. -/
theorem ascii_of_mem_written {c : Config} {m : WrittenMember} (hm : m ∈ c.written) :
    ∀ x ∈ m.line, x.toNat < 128 := by
  rcases List.mem_append.mp hm with hm | hm
  · rw [Option.mem_toList, Option.map_eq_some_iff] at hm
    obtain ⟨k, -, rfl⟩ := hm
    exact ascii_of_line (Text.forall_mem_of_all (by decide))
      (fun _ => ascii_of_mem_quoted fun _ => plain_of_mem_name) _
  · simp only [List.mem_cons, List.not_mem_nil, or_false] at hm
    rcases hm with rfl | rfl | rfl | rfl | rfl
    · exact ascii_of_line (Text.forall_mem_of_all (by decide))
        (fun _ => ascii_of_mem_quoted fun _ => EventMask.plain_of_mem_toText) _
    · exact ascii_of_line (Text.forall_mem_of_all (by decide)) (fun _ => ascii_of_mem_boolean) _
    · exact ascii_of_line (Text.forall_mem_of_all (by decide)) (fun _ => ascii_of_mem_numeral) _
    · exact ascii_of_line (Text.forall_mem_of_all (by decide)) (fun _ => ascii_of_mem_numeral) _
    · exact ascii_of_line (Text.forall_mem_of_all (by decide)) (fun _ => ascii_of_mem_numeral) _

theorem nodup_keys_written (c : Config) : (c.written.map WrittenMember.key).Nodup := by
  have hkeys : c.written.map WrittenMember.key =
      (c.backend.map fun _ => "backend".toList).toList
        ++ ["events".toList, "recursive".toList, "buffer_size".toList, "debounce_ms".toList,
          "poll_interval_ms".toList] := by
    cases hb : c.backend <;> simp [written, hb]
  rw [hkeys]
  cases c.backend with
  | none => decide
  | some k => cases k <;> decide

/-! ### The settings of a document -/

theorem backendOf?_name (k : BackendKind) : backendOf? (.string k.name.toList) = some k := by
  cases k <;> decide

theorem eventsOf?_toText (a : EventMask) : eventsOf? (.string a.toText.toList) = some a := by
  rw [eventsOf?, EventMask.ofText_toText]
  rfl

theorem numberOf?_of_lt {bound n : Nat} (h : n < bound) : numberOf? bound (.integer n) = some n :=
  if_pos h

/-- The members that are written set every setting to what it was. -/
theorem ofMembers?_written (c : Config) :
    ofMembers? (c.written.map WrittenMember.toMember) = some c := by
  obtain ⟨backend, events, recursive, bufferSize, debounceMs, pollIntervalMs⟩ := c
  have hbuffer := numberOf?_of_lt bufferSize.toNat_lt
  have hdebounce := numberOf?_of_lt debounceMs.toNat_lt
  have hpoll := numberOf?_of_lt pollIntervalMs.toNat_lt
  cases backend with
  | none =>
    simp [ofMembers?, written, WrittenMember.toMember, set?, eventsOf?_toText, booleanOf?,
      hbuffer, hdebounce, hpoll]
  | some k =>
    simp [ofMembers?, written, WrittenMember.toMember, set?, backendOf?_name, eventsOf?_toText,
      booleanOf?, hbuffer, hdebounce, hpoll]

/-! ### Writing and reading -/

theorem isWritable_of_toText {c : Config} {s : String} (h : c.toText = .ok s) :
    c.isWritable = true := by
  by_contra hnot
  rw [toText_of_not_writable (by simpa using hnot)] at h
  cases h

theorem lines_of_toText {c : Config} {s : String} (h : c.toText = .ok s) :
    s.toList = c.written.flatMap WrittenMember.line := by
  obtain ⟨s', hs', hlines⟩ := toText_of_writable (isWritable_of_toText h)
  obtain rfl : s' = s := Except.ok.inj (hs'.symm.trans h)
  exact hlines

/-- A document that can be written gives back the settings, if they are in their ranges. -/
theorem ofText_of_written {c : Config} {s : String} (h : c.toText = .ok s) :
    (c.fault? = none → ofText s.toList = .ok c)
      ∧ ∀ fault, c.fault? = some fault → ofText s.toList = .error (.invalid fault) := by
  have hwritable := isWritable_of_toText h
  have hparsed := Toml.parse?_of_readable (fun m hm => isReadable_of_mem_written hwritable hm)
    (nodup_keys_written c)
  have hread : (Toml.parse? s.toList).bind ofMembers? = some c := by
    rw [lines_of_toText h, hparsed, Option.bind_some, ofMembers?_written]
  rw [ofText, hread]
  constructor
  · intro hnone
    simp only [hnone]
  · intro fault hfault
    simp only [hfault]

/-- Settings are accepted when every one of them is in its range. -/
theorem fault?_eq_none_iff (c : Config) :
    c.fault? = none ↔ isWithin bufferRange c.bufferSize.toNat = true
      ∧ c.debounceMs.toNat ≤ longestDebounce ∧ isWithin pollRange c.pollIntervalMs.toNat = true
      ∧ c.events.isEmpty = false := by
  unfold fault?
  split_ifs with hbuffer hdebounce hpoll hevents
  · simp_all
  · simp only [false_iff, not_and]
    omega
  · simp_all
  · simp_all
  · simp_all

/-- Settings in their ranges can be written. -/
theorem isWritable_of_faultless {c : Config} (h : c.fault? = none) : c.isWritable = true := by
  obtain ⟨-, hdebounce, hpoll, -⟩ := (fault?_eq_none_iff c).mp h
  have hlongest : c.pollIntervalMs.toNat ≤ 3600000 :=
    of_decide_eq_true (Bool.and_eq_true_iff.mp hpoll).2
  exact (isWritable_iff c).mpr
    ⟨hdebounce.trans (by decide), hlongest.trans (by decide)⟩

/-- Settings that are read are in their ranges. -/
theorem faultless_of_ofText {s : List Char} {c : Config} (h : ofText s = .ok c) :
    c.fault? = none := by
  unfold ofText at h
  split at h
  · cases h
  · split at h
    · cases h
    · rename_i hfault
      obtain rfl := Except.ok.inj h
      exact hfault

/-- Settings that a file holds, or the defaults where there is none, are in their ranges. -/
theorem faultless_of_load {d : Disk} {p : Path} {c : Config} (h : load d p = .ok c) :
    c.fault? = none := by
  unfold load at h
  split at h
  · obtain rfl := Except.ok.inj h
    decide
  · cases h
  · split at h
    · cases h
    · exact faultless_of_ofText h

/-- What a command uses are settings that were read. -/
theorem load_of_loadConfig {d : Disk} {p : Path} {c : Config}
    (h : CommandLine.loadConfig d p = .ok c) : load d p = .ok c := by
  unfold CommandLine.loadConfig at h
  split at h
  · next c' hc =>
    obtain rfl := Except.ok.inj h
    exact hc
  · cases h

/-- A file that holds a written document is read as that document. -/
theorem load_of_written {c : Config} {s : String} (h : c.toText = .ok s) {d : Disk} {p : Path}
    (hread : d.read p = .ok (Text.encode s.toList)) : load d p = ofText s.toList := by
  have hdecode : Text.decode? (Text.encode s.toList) = some s.toList := by
    apply Text.decode?_encode_of_ascii
    rw [lines_of_toText h]
    intro x hx
    obtain ⟨m, hm, hx⟩ := List.mem_flatMap.mp hx
    exact ascii_of_mem_written hm x hx
  rw [load, hread]
  simp only [hdecode]

/-- **Settings read back as they are written.** They can be written exactly when both times are
small enough for a document. What is written gives back the settings if they are in their ranges,
and otherwise the fault of the first that is not. So what the command `config` prints of the
settings in use is text that gives them back, also to a command that finds it in a file. -/
theorem ofText_of_toText (c : Config) :
    ((∃ s, c.toText = .ok s) ↔
        c.debounceMs.toNat ≤ 9223372036854775807 ∧ c.pollIntervalMs.toNat ≤ 9223372036854775807)
      ∧ (∀ s, c.toText = .ok s → (c.fault? = none → ofText s.toList = .ok c)
          ∧ ∀ fault, c.fault? = some fault → ofText s.toList = .error (.invalid fault))
      ∧ ∀ d p, CommandLine.loadConfig d p = .ok c →
          ∃ s, CommandLine.runConfig d p .settings = ⟨0, s, some (CommandLine.locationLine d p)⟩
            ∧ ofText s.toList = .ok c
            ∧ ∀ d' p', d'.read p' = .ok (Text.encode s.toList) →
                CommandLine.loadConfig d' p' = .ok c := by
  refine ⟨?_, fun s hs => ofText_of_written hs, fun d p hload => ?_⟩
  · constructor
    · rintro ⟨s, hs⟩
      exact (isWritable_iff c).mp (isWritable_of_toText hs)
    · intro h
      obtain ⟨s, hs, -⟩ := toText_of_writable ((isWritable_iff c).mpr h)
      exact ⟨s, hs⟩
  · have hloaded := load_of_loadConfig hload
    have hfaultless := faultless_of_load hloaded
    obtain ⟨s, hs, -⟩ := toText_of_writable (isWritable_of_faultless hfaultless)
    have hback : ofText s.toList = .ok c := (ofText_of_written hs).1 hfaultless
    refine ⟨s, ?_, hback, fun d' p' hread => ?_⟩
    · simp only [CommandLine.runConfig, hload, hs]
    · rw [CommandLine.loadConfig, load_of_written hs hread, hback]

/-- Settings with bits that stand for no class, settings that are out of their ranges, and the
defaults, printed where there is no file and found in a file by a later command. -/
theorem ofText_of_toText_with_spare_bits :
    let spare : Config := { backend := some .stub, events := ⟨0xFFFFFF41⟩, pollIntervalMs := 10 }
    let outside : Config := { events := .empty, bufferSize := 7, debounceMs := 9223372036854775807 }
    let file : Path := .ofText "/c".toList
    (∃ s, spare.toText = .ok s ∧ ofText s.toList = .ok spare)
      ∧ (∃ s, outside.toText = .ok s
        ∧ ofText s.toList = .error (.invalid ⟨.bufferSize, "7 not in 1024..=1048576"⟩))
      ∧ ∃ s, CommandLine.runConfig {} file .settings
          = ⟨0, s, some (CommandLine.locationLine {} file)⟩
        ∧ CommandLine.loadConfig
          { entries := [([[99]], .file (Text.encode s.toList) ⟨0, 0⟩)] } file = .ok {} := by
  intro spare outside file
  obtain ⟨hspare, hreadSpare, -⟩ := ofText_of_toText spare
  obtain ⟨houtside, hreadOutside, -⟩ := ofText_of_toText outside
  obtain ⟨s, hs⟩ := hspare.mpr (by decide)
  obtain ⟨t, ht⟩ := houtside.mpr (by decide)
  have hfault : outside.fault? = some ⟨.bufferSize, "7 not in 1024..=1048576"⟩ := by decide +kernel
  refine ⟨⟨s, hs, (hreadSpare s hs).1 (by decide)⟩, ⟨t, ht, (hreadOutside t ht).2 _ hfault⟩, ?_⟩
  obtain ⟨-, -, hprinted⟩ := ofText_of_toText {}
  obtain ⟨u, hu, -, hfound⟩ := hprinted {} file (by decide +kernel)
  exact ⟨u, hu, hfound _ file rfl⟩

end Config

end FileWatch

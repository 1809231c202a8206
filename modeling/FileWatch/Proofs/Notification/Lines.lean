import FileWatch.CommandLine.Display
import FileWatch.Proofs.Json.WrittenObject
import FileWatch.Proofs.Text.Encoding

/-! # Lines — notifications read back from the lines that print them

A notification is printed as an object of two texts, so it reads back from its line
(`parse?_of_toJson?`), and it has a line just when its path is a text (`isSome_toJson?`). The line
holds no control character, so that of lines one after the other the first is told apart at its
newline (`readLines_cons`), and the notifications that were printed read back from the output
(`readLines_linesOf`).
-/

namespace FileWatch

namespace Notification

/-! ### One notification -/

/-- Whether the path is a text. -/
def hasText (n : Notification) : Bool := n.path.bytes.toByteArray.validateUTF8

/-- The members of the JSON form of a notification whose path has the given text. -/
def members (n : Notification) (text : List Char) : List Json.TextMember :=
  [⟨"kind".toList, n.kind.name.toList⟩, ⟨"path".toList, text⟩]

theorem toJson?_eq (n : Notification) :
    n.toJson? = n.path.text?.map fun text => Json.writtenObject (n.members text) := by
  have hline (text : List Char) : Json.writtenObject (n.members text) =
      ['\x7b'] ++ Json.quote "kind".toList ++ [':'] ++ n.kind.toJson ++ [',']
        ++ Json.quote "path".toList ++ [':'] ++ Json.quote text ++ ['\x7d'] := by
    simp [Json.writtenObject, members, Json.writtenMembers, Json.TextMember.written,
      ChangeKind.toJson]
  simp only [toJson?, hline]

theorem isSome_toJson? (n : Notification) : n.toJson?.isSome = n.hasText := by
  rw [toJson?_eq, Option.isSome_map, Bool.eq_iff_iff, hasText, ByteArray.validateUTF8_eq_true_iff]
  exact Text.decode?_isSome_iff

theorem ofJson?_members {n : Notification} {text : List Char} (h : n.path.text? = some text) :
    ofJson? (.object ((n.members text).map Json.TextMember.value)) = some n := by
  have hkind : ChangeKind.ofJson (.string (some n.kind.name.toList)) = .ok n.kind := by
    rw [ChangeKind.ofJson, ChangeKind.ofName?_name]
  have hpath : Path.ofText text = n.path := by
    rw [Path.ofText, Text.encode_of_decode? h]
  show (do
    let kind ← (ChangeKind.ofJson (.string (some n.kind.name.toList))).toOption
    return (⟨kind, Path.ofText text⟩ : Notification)) = some n
  rw [hkind, hpath]
  rfl

/-- A notification is read back from its JSON form. -/
theorem parse?_of_toJson? {n : Notification} {s : List Char} (h : n.toJson? = some s) :
    parse? s = some n := by
  rw [toJson?_eq] at h
  obtain ⟨text, htext, rfl⟩ := Option.map_eq_some_iff.mp h
  rw [parse?, Json.parse?_writtenObject (by simp [members]), Option.bind_some, ofJson?_members htext]

theorem ge_of_mem_toJson? {n : Notification} {s : List Char} (h : n.toJson? = some s) {c : Char}
    (hc : c ∈ s) : 0x20 ≤ c.toNat := by
  rw [toJson?_eq] at h
  obtain ⟨text, -, rfl⟩ := Option.map_eq_some_iff.mp h
  exact Json.ge_of_mem_writtenObject hc

end Notification

namespace CommandLine

theorem jsonLine_eq_ok_iff {n : Notification} {line : String} :
    jsonLine n = .ok line ↔ n.toJson? = some line.toList := by
  rw [jsonLine]
  cases n.toJson? with
  | none => simp
  | some s =>
    constructor
    · intro h
      cases h
      rw [String.toList_ofList]
    · intro h
      cases h
      show Except.ok (String.ofList line.toList) = .ok line
      rw [String.ofList_toList]

theorem exists_jsonLine_iff {n : Notification} : (∃ line, jsonLine n = .ok line) ↔ n.hasText := by
  rw [← n.isSome_toJson?, Option.isSome_iff_exists]
  constructor
  · rintro ⟨line, h⟩
    exact ⟨_, jsonLine_eq_ok_iff.mp h⟩
  · rintro ⟨s, h⟩
    exact ⟨String.ofList s, jsonLine_eq_ok_iff.mpr (by rw [h, String.toList_ofList])⟩

theorem jsonLine_eq_error_iff {n : Notification} {f : Failure} :
    jsonLine n = .error f ↔ f = .notText ∧ n.hasText = false := by
  rw [← n.isSome_toJson?, jsonLine]
  cases n.toJson? with
  | none => simp [eq_comm]
  | some s => simp

/-! ### Lines one after the other -/

/-- The notifications that the lines of a text spell, if each line spells one. -/
def readLines (s : List Char) : Option (List Notification) :=
  ((s.splitOn '\n').filter fun line => !line.isEmpty).mapM Notification.parse?

/-- The output that lines make. -/
def outputOf (lines : List String) : String := String.join (lines.map (· ++ "\n"))

theorem toList_outputOf_cons (line : String) (lines : List String) :
    (outputOf (line :: lines)).toList = line.toList ++ '\n' :: (outputOf lines).toList := by
  simp [outputOf, String.join_cons]

/-- The first line is read for itself, and the others as they would be without it. -/
theorem readLines_cons {n : Notification} {line : String} (h : jsonLine n = .ok line)
    (lines : List String) :
    readLines (outputOf (line :: lines)).toList =
      (readLines (outputOf lines).toList).map (n :: ·) := by
  have hjson := jsonLine_eq_ok_iff.mp h
  have hparse := Notification.parse?_of_toJson? hjson
  have hnewline : '\n' ∉ line.toList := by
    intro hmem
    exact absurd (Notification.ge_of_mem_toJson? hjson hmem) (by decide)
  have hempty : line.toList.isEmpty = false := by
    cases hline : line.toList with
    | nil =>
      rw [hline] at hparse
      cases hparse
    | cons c s => rfl
  rw [readLines, toList_outputOf_cons, List.splitOn_append_cons_self_of_not_mem hnewline,
    List.filter_cons_of_pos (by simp [hempty]), List.mapM_cons, hparse]
  simp only [readLines, Option.map_eq_bind]
  rfl

/-- The lines of notifications spell those before the first whose path is no text. -/
theorem readLines_linesOf (ns : List Notification) :
    readLines (outputOf (linesOf true ns).1).toList = some (ns.takeWhile Notification.hasText) := by
  induction ns with
  | nil => rfl
  | cons n ns ih =>
    cases h : n.hasText with
    | true =>
      obtain ⟨line, hline⟩ := exists_jsonLine_iff.mpr h
      have hlines : (linesOf true (n :: ns)).1 = line :: (linesOf true ns).1 := by
        rw [linesOf, lineOf, if_pos rfl, hline]
      rw [hlines, readLines_cons hline, ih, List.takeWhile_cons_of_pos h]
      rfl
    | false =>
      have hline : jsonLine n = .error .notText := jsonLine_eq_error_iff.mpr ⟨rfl, h⟩
      have hlines : (linesOf true (n :: ns)).1 = [] := by
        rw [linesOf, lineOf, if_pos rfl, hline]
      rw [hlines, List.takeWhile_cons_of_neg (by simp [h])]
      rfl

theorem linesOf_failure (ns : List Notification) :
    (linesOf true ns).2 = if ns.all Notification.hasText then none else some .notText := by
  induction ns with
  | nil => rfl
  | cons n ns ih =>
    cases h : n.hasText with
    | true =>
      obtain ⟨line, hline⟩ := exists_jsonLine_iff.mpr h
      rw [linesOf, lineOf, if_pos rfl, hline]
      simpa [h] using ih
    | false =>
      have hline : jsonLine n = .error .notText := jsonLine_eq_error_iff.mpr ⟨rfl, h⟩
      rw [linesOf, lineOf, if_pos rfl, hline]
      simp [h]

/-- A notification has a line of JSON just when its path is a text, and the command fails for
another. The line holds no control character, and the notification is read back from it. So the
lines of any notifications spell, in order, those before the first that has none: all of them, if
each path is a text. -/
theorem json_lines_read_back :
    (∀ n : Notification,
      ((∃ line, jsonLine n = .ok line) ↔ n.path.bytes.toByteArray.IsValidUTF8)
      ∧ (∀ f, jsonLine n = .error f ↔ f = .notText ∧ ¬ n.path.bytes.toByteArray.IsValidUTF8)
      ∧ ∀ line, jsonLine n = .ok line →
          (∀ c ∈ line.toList, 0x20 ≤ c.toNat) ∧ Notification.parse? line.toList = some n)
    ∧ ∀ ns : List Notification,
        readLines (outputOf (linesOf true ns).1).toList
            = some (ns.takeWhile fun n => n.path.bytes.toByteArray.validateUTF8)
        ∧ ((linesOf true ns).2 = none ↔ ∀ n ∈ ns, n.path.bytes.toByteArray.IsValidUTF8)
        ∧ ((∀ n ∈ ns, n.path.bytes.toByteArray.IsValidUTF8) →
            readLines (outputOf (linesOf true ns).1).toList = some ns) := by
  have hvalid (n : Notification) : n.hasText = true ↔ n.path.bytes.toByteArray.IsValidUTF8 :=
    ByteArray.validateUTF8_eq_true_iff
  refine ⟨fun n => ⟨?_, fun f => ?_, fun line h => ?_⟩, fun ns => ⟨?_, ?_, fun h => ?_⟩⟩
  · rw [exists_jsonLine_iff, hvalid]
  · rw [jsonLine_eq_error_iff, ← hvalid, Bool.not_eq_true]
  · have hjson := jsonLine_eq_ok_iff.mp h
    exact ⟨fun c hc => Notification.ge_of_mem_toJson? hjson hc,
      Notification.parse?_of_toJson? hjson⟩
  · exact readLines_linesOf ns
  · have hall : ns.all Notification.hasText = true ↔
        ∀ n ∈ ns, n.path.bytes.toByteArray.IsValidUTF8 := by
      simp only [List.all_eq_true, hvalid]
    rw [linesOf_failure, ← hall]
    simp
  · rw [readLines_linesOf, List.takeWhile_eq_self_iff.mpr fun n hn => (hvalid n).mpr (h n hn)]

/-- A notification whose path holds a quotation mark, a backslash, control characters and characters
of two, three and four bytes. -/
def oddlyNamed : Notification := ⟨.renamedFrom, Path.ofString "a\"\\\n\x01\x7fé\u2028😀"⟩

/-- The line of `oddlyNamed`. -/
def oddLine : String :=
  "\x7b\"kind\":\"renamed_from\",\"path\":\"a\\\"\\\\\\n\\u0001\x7fé\u2028😀\"\x7d"

theorem json_lines_read_back_of_odd_name :
    jsonLine oddlyNamed = .ok oddLine
    ∧ (∀ c ∈ oddLine.toList, 0x20 ≤ c.toNat)
    ∧ Notification.parse? oddLine.toList = some oddlyNamed
    ∧ readLines (outputOf (linesOf true [oddlyNamed, oddlyNamed]).1).toList
        = some [oddlyNamed, oddlyNamed] := by
  have hline : jsonLine oddlyNamed = .ok oddLine := by decide +kernel
  obtain ⟨hgood, -, hread⟩ := json_lines_read_back.1 oddlyNamed
  obtain ⟨-, -, hall⟩ := json_lines_read_back.2 [oddlyNamed, oddlyNamed]
  obtain ⟨hcontrol, hparse⟩ := hread oddLine hline
  refine ⟨hline, hcontrol, hparse, hall ?_⟩
  intro n hn
  have hn : n = oddlyNamed := by simpa using hn
  rw [hn]
  exact hgood.mp ⟨oddLine, hline⟩

end CommandLine

end FileWatch

import FileWatch.Proofs.Config.RoundTrip
import FileWatch.Proofs.EventMask.Notations

/-! # Accepted — what settings that are read ask for

Settings that are read are in their ranges, so their mask is not empty. It comes from the document
or is the default (`events_of_ofText`), and the default asks for four classes. So a mask that asks
for no class comes from the document, where it is made of numbers without the bits of any class. A
list of the command line does not come to such a mask (`resolveEvents_cases`).
-/

namespace FileWatch.Config

open CommandLine (resolveEvents)

/-! ### Ranges -/

theorem isWithin_iff {range : Nat × Nat} {n : Nat} :
    isWithin range n = true ↔ range.1 ≤ n ∧ n ≤ range.2 := by
  simp [isWithin]

/-- The ranges of settings that pass the check. -/
theorem ranges_of_faultless {c : Config} (h : c.fault? = none) :
    (1024 ≤ c.bufferSize.toNat ∧ c.bufferSize.toNat ≤ 1048576) ∧ c.debounceMs.toNat ≤ 60000
      ∧ 10 ≤ c.pollIntervalMs.toNat ∧ c.pollIntervalMs.toNat ≤ 3600000 := by
  obtain ⟨hbuffer, hdebounce, hpoll, -⟩ := (fault?_eq_none_iff c).mp h
  exact ⟨isWithin_iff.mp hbuffer, hdebounce, isWithin_iff.mp hpoll⟩

theorem events_ne_empty_of_faultless {c : Config} (h : c.fault? = none) : c.events ≠ .empty := by
  obtain ⟨-, -, -, hsome⟩ := (fault?_eq_none_iff c).mp h
  intro hempty
  rw [hempty] at hsome
  cases hsome

/-! ### Where the mask comes from -/

theorem eventsOf?_eq_some {node : Toml.Node} {m : EventMask} (h : eventsOf? node = some m) :
    ∃ t, node = .string t ∧ EventMask.ofText t = .ok m := by
  unfold eventsOf? at h
  split at h
  · rename_i t
    exact ⟨t, rfl, toOption_eq_some_iff.mp h⟩
  · cases h

/-- A member leaves the mask as it is, or it is the mask. -/
theorem events_of_set? {c c' : Config} {member : Toml.Member} (h : c.set? member = some c') :
    c'.events = c.events
      ∨ ∃ t, member = ("events".toList, .string t) ∧ EventMask.ofText t = .ok c'.events := by
  obtain ⟨key, value⟩ := member
  unfold set? at h
  split at h
  case h_2 hkey =>
    obtain ⟨m, hm, rfl⟩ := Option.map_eq_some_iff.mp h
    obtain ⟨t, rfl, ht⟩ := eventsOf?_eq_some hm
    have hkey : key = "events".toList := by rw [← hkey, String.toList_ofList]
    exact .inr ⟨t, by rw [hkey], ht⟩
  case h_7 => cases h
  all_goals
    obtain ⟨value, -, rfl⟩ := Option.map_eq_some_iff.mp h
    exact .inl rfl

theorem events_of_foldlM {members : List Toml.Member} {c c' : Config}
    (h : members.foldlM set? c = some c') :
    c'.events = c.events
      ∨ ∃ t, ("events".toList, .string t) ∈ members ∧ EventMask.ofText t = .ok c'.events := by
  induction members generalizing c with
  | nil => exact .inl (congrArg events (Option.some.inj h)).symm
  | cons member members ih =>
    rw [List.foldlM_cons] at h
    obtain ⟨c₁, hset, hrest⟩ := Option.bind_eq_some_iff.mp h
    rcases ih hrest with hkept | ⟨t, ht, hread⟩
    · rw [hkept]
      rcases events_of_set? hset with hkept | ⟨t, rfl, hread⟩
      · exact .inl hkept
      · exact .inr ⟨t, List.mem_cons_self .., hread⟩
    · exact .inr ⟨t, List.mem_cons_of_mem _ ht, hread⟩

/-- The mask of a document is the default or what the document says. -/
theorem events_of_ofText {s : List Char} {c : Config} (h : ofText s = .ok c) :
    c.events = .standard
      ∨ ∃ members t, Toml.parse? s = some members ∧ ("events".toList, .string t) ∈ members
        ∧ EventMask.ofText t = .ok c.events := by
  unfold ofText at h
  split at h
  · cases h
  · rename_i c' hread
    split at h
    · cases h
    · obtain rfl := Except.ok.inj h
      obtain ⟨members, hmembers, hset⟩ := Option.bind_eq_some_iff.mp hread
      rcases events_of_foldlM hset with hdefault | ⟨t, ht, hmask⟩
      · exact .inl hdefault
      · exact .inr ⟨members, t, hmembers, ht, hmask⟩

/-! ### Masks that ask for no class -/

/-- A mask of the command line is the given one where there is no list, or asks for a class. -/
theorem resolveEvents_cases {list : Option (List Char)} {standard m : EventMask}
    (h : resolveEvents list standard = .ok m) :
    (list = none ∧ m = standard) ∨ (list ≠ none ∧ m.classes ≠ []) := by
  cases list with
  | none => exact .inl ⟨rfl, (Except.ok.inj h).symm⟩
  | some s =>
    simp only [resolveEvents] at h
    split at h
    · cases h
    · rename_i read hread
      split at h
      · cases h
      · rename_i hsome
        obtain rfl := Except.ok.inj h
        exact .inr ⟨nofun, fun hnone =>
          hsome (EventMask.isEmpty_of_classes (EventMask.all_contains_of_ofFlagList hread) hnone)⟩

/-- The mask of a document asks for no class exactly if the document makes it of numbers without the
bits of any class. -/
theorem classes_eq_nil_of_ofText {s : List Char} {c : Config} (h : ofText s = .ok c) :
    c.events.classes = [] ↔ ∃ members t, Toml.parse? s = some members
      ∧ ("events".toList, .string t) ∈ members ∧ EventMask.ofText t = .ok c.events
      ∧ ∀ w ∈ EventMask.words t, EventMask.IsSpareNumber w := by
  have hne := events_ne_empty_of_faultless (faultless_of_ofText h)
  constructor
  · intro hnone
    rcases events_of_ofText h with hdefault | ⟨members, t, hmembers, ht, hread⟩
    · rw [hdefault] at hnone
      exact absurd hnone (by decide)
    · exact ⟨members, t, hmembers, ht, hread,
        (EventMask.classes_eq_nil_of_ofText hread hne).mp hnone⟩
  · rintro ⟨members, t, -, -, hread, hspare⟩
    exact (EventMask.classes_eq_nil_of_ofText hread hne).mpr hspare

/-- **Settings that are read are in their ranges**, and their mask is not empty. It asks for no
class exactly if the document makes it of numbers without the bits of any class. Beside such
settings a command asks for no class exactly if they ask for none and it has no list of its own. -/
theorem accepted_settings {s : List Char} {c : Config} (h : ofText s = .ok c) :
    (1024 ≤ c.bufferSize.toNat ∧ c.bufferSize.toNat ≤ 1048576) ∧ c.debounceMs.toNat ≤ 60000
      ∧ (10 ≤ c.pollIntervalMs.toNat ∧ c.pollIntervalMs.toNat ≤ 3600000) ∧ c.events ≠ .empty
      ∧ (c.events.classes = [] ↔ ∃ members t, Toml.parse? s = some members
        ∧ ("events".toList, .string t) ∈ members ∧ EventMask.ofText t = .ok c.events
        ∧ ∀ w ∈ EventMask.words t, EventMask.IsSpareNumber w)
      ∧ ∀ list m, resolveEvents list c.events = .ok m →
        (m.classes = [] ↔ list = none ∧ c.events.classes = []) := by
  have hfaultless := faultless_of_ofText h
  obtain ⟨hbuffer, hdebounce, hpoll⟩ := ranges_of_faultless hfaultless
  refine ⟨hbuffer, hdebounce, hpoll, events_ne_empty_of_faultless hfaultless,
    classes_eq_nil_of_ofText h, fun list m hm => ?_⟩
  rcases resolveEvents_cases hm with ⟨rfl, rfl⟩ | ⟨hlist, hclass⟩
  · simp
  · exact iff_of_false hclass fun hnone => hlist hnone.1

/-- Numbers without the bits of any class in a document, and a list beside it. -/
theorem accepted_settings_with_spare_bits :
    ∃ c, ofText "events = \"0x100 | 0x+2000\"\ndebounce_ms = 60000".toList = .ok c
      ∧ c.debounceMs.toNat ≤ 60000 ∧ c.events.classes = []
      ∧ (∃ t, EventMask.ofText t = .ok c.events
        ∧ ∀ w ∈ EventMask.words t, EventMask.IsSpareNumber w)
      ∧ ∃ m, resolveEvents (some "size".toList) c.events = .ok m ∧ m.classes ≠ [] := by
  have hread : ofText "events = \"0x100 | 0x+2000\"\ndebounce_ms = 60000".toList =
      .ok { events := ⟨0x2100⟩, debounceMs := 60000 } := by decide +kernel
  obtain ⟨-, hdebounce, -, -, hspare, hlist⟩ := accepted_settings hread
  have hnone : (EventMask.mk 0x2100).classes = [] := by decide
  obtain ⟨-, t, -, -, ht, hwords⟩ := hspare.mp hnone
  have hsize : resolveEvents (some "size".toList) ⟨0x2100⟩ = .ok (.single .size) := by decide
  exact ⟨_, hread, hdebounce, hnone, ⟨t, ht, hwords⟩, _, hsize, fun hclass =>
    nomatch ((hlist _ _ hsize).mp hclass).1⟩

/-- Settings that are read need not ask for a class, and then neither does a command without a list
of its own. -/
theorem accepted_settings_without_class :
    (¬ ∀ s c, ofText s = .ok c → (1024 ≤ c.bufferSize.toNat ∧ c.bufferSize.toNat ≤ 1048576)
        ∧ c.debounceMs.toNat ≤ 60000
        ∧ (10 ≤ c.pollIntervalMs.toNat ∧ c.pollIntervalMs.toNat ≤ 3600000)
        ∧ c.events.classes ≠ [])
      ∧ ¬ ∀ s c, ofText s = .ok c → ∀ list m, resolveEvents list c.events = .ok m →
        m.classes ≠ [] := by
  have hread : ofText "events = \"0x100\"".toList = .ok { events := ⟨0x100⟩ } := by
    decide +kernel
  have hnone : (EventMask.mk 0x100).classes = [] := by decide
  constructor
  · intro hall
    obtain ⟨-, -, -, hclass⟩ := hall _ _ hread
    exact hclass hnone
  · intro hall
    exact hall _ _ hread none _ rfl hnone

end FileWatch.Config

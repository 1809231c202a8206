import FileWatch.Proofs.Disk.Walking

/-! # Canonical — one path for each entry

The canonical path of an entry spells the place where a walk ends (`IsTree.canonical_eq`), and the
names of a place are read back from its path (`components_ofNames`), so paths with one canonical
path lead to one entry (`IsTree.status_of_canonical`). The path itself is absolute, has no dots and
passes no link, and it resolves to itself (`IsTree.resolve_ofNames`).
-/

namespace FileWatch

namespace Path

/-! ### The path of a place -/

theorem splitOn_names (n : Name) (names : List Name) (h : ∀ m ∈ n :: names, slash ∉ m) :
    (n ++ names.flatMap (slash :: ·)).splitOn slash = n :: names := by
  induction names generalizing n with
  | nil =>
    rw [List.flatMap_nil, List.append_nil]
    exact List.splitOn_eq_singleton (h n (List.mem_cons_self ..))
  | cons m names ih =>
    rw [List.flatMap_cons, List.cons_append,
      List.splitOn_append_cons_self_of_not_mem (h n (List.mem_cons_self ..)),
      ih m fun m' hm' => h m' (List.mem_cons_of_mem n hm')]

theorem pieces_ofNames {names : List Name} (hne : names ≠ []) (h : ∀ n ∈ names, slash ∉ n) :
    (ofNames names).pieces = [] :: names := by
  obtain ⟨n, rest, rfl⟩ := List.exists_cons_of_ne_nil hne
  have hsplit := splitOn_names [] (n :: rest) (List.forall_mem_cons.mpr ⟨by simp, h⟩)
  exact hsplit

theorem isAbsolute_ofNames (names : List Name) : (ofNames names).isAbsolute = true := by
  cases names with
  | nil => rfl
  | cons n rest => rfl

/-- The names of a place are read back from its path. -/
theorem components_ofNames {names : List Name} (h : ∀ n ∈ names, IsEntryName n) :
    (ofNames names).components = .root :: names.map .name := by
  have hpieces : (ofNames names).pieces.filter isName = names := by
    cases names with
    | nil => rfl
    | cons n rest =>
      rw [pieces_ofNames (List.cons_ne_nil n rest) fun m hm => (h m hm).no_slash,
        List.filter_cons_of_neg (by decide), List.filter_eq_self]
      exact fun m hm => (h m hm).is_name
  rw [components, isAbsolute_ofNames, hpieces]
  rfl

theorem ofNames_inj {names names' : List Name} (h : ∀ n ∈ names, IsEntryName n)
    (h' : ∀ n ∈ names', IsEntryName n) (heq : ofNames names = ofNames names') : names = names' := by
  have hcomponents := congrArg components heq
  rw [components_ofNames h, components_ofNames h'] at hcomponents
  have hmap := (List.cons.inj hcomponents).2
  exact (List.map_inj_right fun _ _ => Component.name.inj).mp hmap

theorem not_mem_ofNames {names : List Name} (h : ∀ n ∈ names, IsEntryName n) :
    0 ∉ (ofNames names).bytes := by
  unfold ofNames
  split
  · decide
  · intro hzero
    obtain ⟨n, hn, hmem⟩ := List.mem_flatMap.mp hzero
    rcases List.mem_cons.mp hmem with hslash | hmem
    · exact absurd hslash (by decide)
    · exact (h n hn).no_nul hmem

theorem length_ofNames_append_le (names more : List Name) :
    (ofNames names).bytes.length ≤ (ofNames (names ++ more)).bytes.length := by
  cases names with
  | nil => cases more <;> simp [ofNames]
  | cons n rest => simp [ofNames]

end Path

namespace Disk

variable {d : Disk}

theorem isFar_append {place : Place} (h : isFar place = true) (more : List Name) :
    isFar (place ++ more) = true := by
  have hle := Path.length_ofNames_append_le place more
  simp only [isFar, gt_iff_lt, decide_eq_true_eq] at h ⊢
  omega

/-! ### The walk down to an entry -/

theorem needDirectory_of_isEntryName {names : List Name} (h : ∀ n ∈ names, IsEntryName n) :
    needDirectory names = false := by
  cases names with
  | nil => rfl
  | cons n rest =>
    have hn := h n (List.mem_cons_self ..)
    obtain ⟨hne, hdot⟩ : n ≠ [] ∧ n ≠ Path.dot := by simpa [Path.isName] using hn.is_name
    rw [needDirectory, if_neg (by simpa using hne), if_neg (by simpa using hdot)]
    simpa using hn.not_dotDot

theorem stride_empty {place : Place} (hdir : d.entry? place = some .directory) (m : Manner)
    (rest : List Name) : d.stride m place [] rest = .onward place := by
  rw [stride, if_neg (by simp [isDirectoryAt_iff.mpr hdir]), if_pos (by decide)]

/-- At the name of an entry that is no link, a walk goes on from there, unless it goes step by step
and is too far. -/
theorem stride_down {m : Manner} {place : Place} {n : Name} {rest : List Name} {e : Entry}
    (hdir : d.entry? place = some .directory) (hn : IsEntryName n)
    (he : d.entry? (place ++ [n]) = some e) (hlink : ∀ t, e ≠ .link t)
    (hrest : ∀ n ∈ rest, IsEntryName n) :
    d.stride m place n rest =
      if m.isStepwise && isFar (place ++ [n]) then .stop (.refused .nameTooLong)
      else .onward (place ++ [n]) := by
  rw [stride, if_neg (by simp [isDirectoryAt_iff.mpr hdir]), if_neg (by simp [hn.is_name]),
    if_neg (by simp [hn.not_dotDot]), if_neg (Nat.not_lt.mpr hn.short), he]
  cases e with
  | link t => exact absurd rfl (hlink t)
  | file content modified => simp [needDirectory_of_isEntryName hrest]
  | directory => simp [needDirectory_of_isEntryName hrest]

/-- The walk down from a place to an entry below. -/
theorem IsTree.walkNames_down (h : d.IsTree) {m : Manner} {onLink : Place → List Name → Walk}
    {place : Place} {names : List Name} {e : Entry} (he : d.entry? (place ++ names) = some e)
    (hlink : ∀ t, e ≠ .link t) (hnear : (m.isStepwise && isFar place) = false) :
    d.walkNames m onLink place names =
      if m.isStepwise && isFar (place ++ names) then .refused .nameTooLong
      else .found (place ++ names) e := by
  induction names generalizing place with
  | nil =>
    rw [List.append_nil] at he ⊢
    rw [walkNames, he, hnear]
    rfl
  | cons n rest ih =>
    have hnames : ∀ n' ∈ n :: rest, IsEntryName n' := fun n' hn' =>
      h.isEntryName he (List.mem_append_right place hn')
    obtain ⟨hn, hrest⟩ := List.forall_mem_cons.mp hnames
    have hplace : d.entry? place = some .directory :=
      h.directory_above he (List.prefix_append place _) (by simp)
    have hsplit : place ++ n :: rest = place ++ [n] ++ rest := by simp
    obtain ⟨e', he', hlink'⟩ : d.IsFirm (place ++ [n]) := by
      by_cases hlast : rest = []
      · exact ⟨e, by rwa [hlast] at he, hlink⟩
      · refine isFirm_of_directory (h.directory_above he ?_ ?_)
        · rw [hsplit]
          exact List.prefix_append ..
        · simpa [eq_comm] using hlast
    rw [walkNames_cons, stride_down hplace hn he' hlink' hrest, hsplit]
    by_cases hfar : (m.isStepwise && isFar (place ++ [n])) = true
    · obtain ⟨hstep, hfar'⟩ := Bool.and_eq_true_iff.mp hfar
      rw [if_pos hfar, if_pos (by rw [hstep, isFar_append hfar' rest]; rfl)]
    · rw [if_neg hfar]
      exact ih (by rwa [hsplit] at he) (by simpa using hfar)

/-- Where a path of a place leads: the entry there. -/
theorem IsTree.walkPath_ofNames (h : d.IsTree) (m : Manner) {place : Place} {e : Entry}
    (he : d.entry? place = some e) (hlink : ∀ t, e ≠ .link t) :
    d.walkPath m (Path.ofNames place) =
      if m.isStepwise && isFar place then .refused .nameTooLong else .found place e := by
  have hroot : d.entry? [] = some .directory := rfl
  have hnear : (m.isStepwise && isFar []) = false := by
    rw [show isFar [] = false by decide, Bool.and_false]
  rw [walkPath, start, if_pos (Path.isAbsolute_ofNames place)]
  by_cases hplace : place = []
  · -- the path of the root has an empty name before its separator and one behind it
    subst hplace
    cases he
    show d.walkNames m _ [] [[], []] = _
    rw [hnear, walkNames_cons, stride_empty hroot]
    show d.walkNames m _ [] [[]] = _
    rw [walkNames_cons, stride_empty hroot]
    rfl
  · rw [Path.pieces_ofNames hplace fun n hn => (h.isEntryName he hn).no_slash]
    show d.walkNames m _ [] ([] :: place) = _
    rw [walkNames_cons, stride_empty hroot]
    exact h.walkNames_down (he : d.entry? ([] ++ place) = some e) hlink hnear

/-! ### Canonical paths -/

/-- The path of an entry is its own canonical path, unless it is too long to be looked up. -/
theorem IsTree.canonical_ofNames (h : d.IsTree) {place : Place} {e : Entry}
    (he : d.entry? place = some e) (hlink : ∀ t, e ≠ .link t) :
    d.canonical (Path.ofNames place) =
      if isFar place then .error .nameTooLong else .ok (Path.ofNames place) := by
  have hzero : (Path.ofNames place).bytes.contains 0 = false := by
    simpa using Path.not_mem_ofNames fun n hn => h.isEntryName he hn
  have habs := Path.isAbsolute_ofNames place
  have hnonempty : (Path.ofNames place).isEmpty = false := by
    cases place <;> rfl
  simp only [canonical, hzero, hnonempty, habs, h.walkPath_ofNames _ he hlink, Bool.true_and,
    Bool.not_true, Bool.false_and, Bool.or_self, Bool.false_eq_true, if_false]
  cases isFar place <;> rfl

/-- The path of an entry resolves to itself, of whatever length. -/
theorem IsTree.resolve_ofNames (h : d.IsTree) {place : Place} {e : Entry}
    (he : d.entry? place = some e) (hlink : ∀ t, e ≠ .link t) :
    d.resolve (Path.ofNames place) = Path.ofNames place := by
  have hjoin (base : Path) : base.join (Path.ofNames place) = Path.ofNames place := by
    rw [Path.join, if_pos (Path.isAbsolute_ofNames place)]
  rw [resolve, h.canonical_ofNames he hlink]
  split
  · next c hc =>
    split at hc <;> cases hc
    rfl
  · cases d.currentPath? with
    | none => rfl
    | some base => exact hjoin base

/-- A canonical path spells the place of an entry that is no link, where the path leads. -/
theorem IsTree.canonical_eq (h : d.IsTree) {p c : Path} (hc : d.canonical p = .ok c) :
    0 ∉ p.bytes ∧ p.isEmpty = false ∧ ∃ place e, c = Path.ofNames place
      ∧ d.walkPath ⟨true, false⟩ p = .found place e ∧ d.entry? place = some e
      ∧ ∀ t, e ≠ .link t := by
  unfold canonical at hc
  by_cases hzero : p.bytes.contains 0 = true
  · rw [if_pos hzero] at hc
    cases hc
  rw [if_neg hzero] at hc
  by_cases hnone : (p.isEmpty || (!p.isAbsolute && d.currentPath?.isNone)) = true
  · rw [if_pos hnone] at hc
    cases hc
  rw [if_neg hnone] at hc
  have hclean : 0 ∉ p.bytes := by simpa using hzero
  obtain ⟨hempty, hcurrent⟩ := Bool.or_eq_false_iff.mp (Bool.not_eq_true _ ▸ hnone)
  have hstart : d.StartsIn p := by
    rcases Bool.and_eq_false_iff.mp hcurrent with habs | hthere
    · exact .inl (by simpa using habs)
    · refine .inr fun parent hremoved => ?_
      simp [currentPath?, hremoved] at hthere
  cases hwalk : d.walkPath ⟨true, true⟩ p with
  | found place e =>
    rw [hwalk] at hc
    cases hc
    have hsound := h.isSound_walkPath hclean hstart ⟨true, true⟩
    rw [hwalk] at hsound
    exact ⟨hclean, hempty, place, e, rfl, walkPath_of_stepwise hwalk, hsound.1, hsound.2 rfl⟩
  | absent place asDirectory =>
    rw [hwalk] at hc
    cases hc
  | detached =>
    rw [hwalk] at hc
    cases hc
  | refused fault =>
    rw [hwalk] at hc
    cases hc

theorem isEmpty_of_overlong {p : Path} (hp : longestPath < p.bytes.length) : p.isEmpty = false := by
  rw [Path.isEmpty, List.isEmpty_eq_false_iff]
  exact List.ne_nil_of_length_pos (Nat.zero_lt_of_lt hp)

/-- A path that is too long leads nowhere. -/
theorem status_of_overlong (d : Disk) {p : Path} (hp : longestPath < p.bytes.length) :
    ∃ fault, d.status p = .error fault := by
  rw [status, locate, pathFault?, isEmpty_of_overlong hp, if_pos hp]
  by_cases hzero : p.bytes.contains 0 = true
  · rw [if_pos hzero]
    exact ⟨.nulByte, rfl⟩
  · rw [if_neg hzero]
    exact ⟨.nameTooLong, rfl⟩

/-- A path that is not too long leads to the entry of its canonical path. -/
theorem IsTree.status_of_canonical (h : d.IsTree) {p c : Path} (hp : p.bytes.length ≤ longestPath)
    (hc : d.canonical p = .ok c) :
    ∃ place e, c = Path.ofNames place ∧ d.entry? place = some e ∧ d.status p = .ok e := by
  obtain ⟨hzero, hempty, place, e, hplace, hwalk, he, -⟩ := h.canonical_eq hc
  have hfault : pathFault? p = none := by
    rw [pathFault?, if_neg (by simpa using hzero), if_neg (by simp [hempty]),
      if_neg (Nat.not_lt.mpr hp)]
  refine ⟨place, e, hplace, he, ?_⟩
  rw [status, locate, hfault]
  simp only [hwalk]
  rfl

/-- Two paths that are not too long lead to the same if they have one canonical path. -/
theorem IsTree.status_eq_of_canonical (h : d.IsTree) {p q c : Path}
    (hp : p.bytes.length ≤ longestPath) (hq : q.bytes.length ≤ longestPath)
    (hpc : d.canonical p = .ok c) (hqc : d.canonical q = .ok c) :
    ∃ e, d.status p = .ok e ∧ d.status q = .ok e := by
  obtain ⟨place, e, hplace, he, hstatus⟩ := h.status_of_canonical hp hpc
  obtain ⟨place', e', hplace', he', hstatus'⟩ := h.status_of_canonical hq hqc
  have hsame : place = place' := Path.ofNames_inj (fun n hn => h.isEntryName he hn)
    (fun n hn => h.isEntryName he' hn) (hplace.symm.trans hplace')
  obtain rfl : e' = e := by
    rw [hsame, he'] at he
    exact Option.some.inj he
  exact ⟨e', hstatus, hstatus'⟩

end Disk

end FileWatch

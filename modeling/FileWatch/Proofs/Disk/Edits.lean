import FileWatch.Disk.Edit
import FileWatch.Proofs.Disk.Walking

/-! # Edits — a tree stays a tree

What is at a place after an entry is put, after places are discarded and after a move is one equation
each (`entry?_put`, `entry?_discard`, `entry?_move`). From these, each of the three leaves a tree a
tree, and so does every edit (`IsTree.edit`).
-/

namespace FileWatch.Disk

variable {d : Disk}

/-! ### What is at a place afterwards -/

theorem isPrefixOf_eq_false_iff {place q : Place} : place.isPrefixOf q = false ↔ ¬ place <+: q := by
  rw [← Bool.not_eq_true, List.isPrefixOf_iff_prefix]

theorem lookup_cons_eq_ite (place : Place) (e : Entry) (l : List (Place × Entry)) (q : Place) :
    ((place, e) :: l).lookup q = if q = place then some e else l.lookup q := by
  rw [List.lookup_cons]
  by_cases hq : q = place
  · rw [beq_iff_eq.mpr hq, if_pos hq]
  · rw [beq_eq_false_iff_ne.mpr hq, if_neg hq]

theorem lookup_filter_key (keep : Place → Bool) (l : List (Place × Entry)) (q : Place) :
    (l.filter fun x => keep x.1).lookup q = if keep q then l.lookup q else none := by
  induction l with
  | nil => simp
  | cons x l ih =>
    obtain ⟨place, e⟩ := x
    rw [List.filter_cons, lookup_cons_eq_ite]
    by_cases hkeep : keep place = true
    · rw [if_pos hkeep, lookup_cons_eq_ite, ih]
      by_cases hq : q = place
      · rw [if_pos hq, if_pos hq, hq, if_pos hkeep]
      · rw [if_neg hq, if_neg hq]
    · rw [if_neg hkeep, ih]
      by_cases hq : q = place
      · rw [hq, if_neg hkeep, if_neg hkeep]
      · rw [if_neg hq]

theorem entry?_of_ne_nil {q : Place} (hq : q ≠ []) : d.entry? q = d.entries.lookup q := by
  unfold entry?
  rw [if_neg (by simpa using hq)]

theorem entry?_put {place : Place} (hplace : place ≠ []) (e : Entry) (q : Place) :
    entry? (d.put place e) q = if q = place then some e else d.entry? q := by
  by_cases hroot : q = []
  · rw [hroot, if_neg hplace.symm]
    rfl
  · rw [entry?_of_ne_nil hroot, entry?_of_ne_nil hroot, put, lookup_cons_eq_ite,
      lookup_filter_key (· != place)]
    by_cases hq : q = place
    · rw [if_pos hq, if_pos hq]
    · rw [if_neg hq, if_neg hq, if_pos (by simpa using hq)]

theorem entry?_discard (gone : Place → Bool) (q : Place) :
    entry? (d.discard gone) q =
      if q = [] then some .directory else if gone q then none else d.entry? q := by
  by_cases hroot : q = []
  · rw [hroot]
    rfl
  · rw [entry?_of_ne_nil hroot, entry?_of_ne_nil hroot, if_neg hroot, discard,
      lookup_filter_key (fun x => !gone x)]
    cases gone q <;> rfl

/-- What is at a place after entries are carried from one place to another at which there is none. -/
theorem lookup_carried (place target : Place) {l : List (Place × Entry)}
    (hl : ∀ x ∈ l, ¬ target <+: x.1) (q : Place) :
    (l.map fun x => (carried place target x.1, x.2)).lookup q =
      if target <+: q then l.lookup (place ++ q.drop target.length)
      else if place <+: q then none else l.lookup q := by
  induction l with
  | nil => simp
  | cons x l ih =>
    obtain ⟨origin, e⟩ := x
    obtain ⟨horigin, hl⟩ := List.forall_mem_cons.mp hl
    rw [List.map_cons, lookup_cons_eq_ite, ih hl]
    simp only [carried, List.isPrefixOf_iff_prefix, lookup_cons_eq_ite]
    by_cases hcarried : place <+: origin
    · obtain ⟨rest, rfl⟩ := hcarried
      rw [if_pos (List.prefix_append place rest), List.drop_left]
      by_cases hq : target <+: q
      · obtain ⟨more, rfl⟩ := hq
        simp
      · have hne : q ≠ target ++ rest := by
          rintro rfl
          exact hq (List.prefix_append target rest)
        rw [if_neg hne, if_neg hq, if_neg hq]
        by_cases hbelow : place <+: q
        · rw [if_pos hbelow, if_pos hbelow]
        · have hne' : q ≠ place ++ rest := by
            rintro rfl
            exact hbelow (List.prefix_append place rest)
          rw [if_neg hbelow, if_neg hbelow, if_neg hne']
    · rw [if_neg hcarried]
      by_cases hq : target <+: q
      · have hne : q ≠ origin := by
          rintro rfl
          exact horigin hq
        have hne' : place ++ q.drop target.length ≠ origin := by
          rintro rfl
          exact hcarried (List.prefix_append ..)
        rw [if_neg hne, if_pos hq, if_pos hq, if_neg hne']
      · rw [if_neg hq, if_neg hq]
        by_cases hbelow : place <+: q
        · have hne : q ≠ origin := by
            rintro rfl
            exact hcarried hbelow
          rw [if_neg hne, if_pos hbelow, if_pos hbelow]
        · rw [if_neg hbelow, if_neg hbelow]

theorem entry?_move {place target : Place} (htarget : target ≠ []) (hapart : ¬ target <+: place)
    (hinto : ¬ place <+: target) (q : Place) :
    entry? (d.move place target) q =
      if target <+: q then d.entry? (place ++ q.drop target.length)
      else if place <+: q then none else d.entry? q := by
  have hplace : place ≠ [] := by
    rintro rfl
    exact hinto List.nil_prefix
  have hkept : ∀ x ∈ (d.erase target).entries, ¬ target <+: x.1 := by
    intro x hx
    rw [← isPrefixOf_eq_false_iff]
    simpa using (List.mem_filter.mp hx).2
  by_cases hroot : q = []
  · subst hroot
    rw [if_neg (by simpa using htarget), if_neg (by simpa using hplace)]
    rfl
  rw [entry?_of_ne_nil hroot, entry?_of_ne_nil hroot,
    entry?_of_ne_nil (List.append_ne_nil_of_left_ne_nil hplace _), move, lookup_carried _ _ hkept,
    erase, discard, lookup_filter_key (fun x => !target.isPrefixOf x),
    lookup_filter_key (fun x => !target.isPrefixOf x)]
  by_cases hq : target <+: q
  · have hstays : ¬ target <+: place ++ q.drop target.length := by
      intro hunder
      rcases List.prefix_or_prefix_of_prefix hunder (List.prefix_append place _) with h | h
      · exact hapart h
      · exact hinto h
    rw [if_pos hq, if_pos hq, if_pos (by simp [isPrefixOf_eq_false_iff.mpr hstays])]
  · have hstays : (!target.isPrefixOf q) = true := by
      rw [isPrefixOf_eq_false_iff.mpr hq]
      rfl
    rw [if_neg hq, if_neg hq, if_pos hstays]

/-- What was below the entry is below it at the new place. -/
theorem entry?_move_append {place target : Place} (htarget : target ≠ [])
    (hapart : ¬ target <+: place) (hinto : ¬ place <+: target) (rest : Place) :
    entry? (d.move place target) (target ++ rest) = d.entry? (place ++ rest) := by
  rw [entry?_move htarget hapart hinto, if_pos (List.prefix_append ..), List.drop_left]

/-- What is neither at the old place nor at the new one stays. -/
theorem entry?_move_of_apart {place target : Place} (htarget : target ≠ [])
    (hapart : ¬ target <+: place) (hinto : ¬ place <+: target) {q : Place} (hq : ¬ target <+: q)
    (hq' : ¬ place <+: q) : entry? (d.move place target) q = d.entry? q := by
  rw [entry?_move htarget hapart hinto, if_neg hq, if_neg hq']

/-- What is somewhere after a move came with the entry, or was there and stayed. -/
theorem origin_of_move {place target : Place} (htarget : target ≠ [])
    (hapart : ¬ target <+: place) (hinto : ¬ place <+: target) {q : Place} {e : Entry}
    (he : entry? (d.move place target) q = some e) :
    (∃ rest, q = target ++ rest ∧ d.entry? (place ++ rest) = some e)
      ∨ ¬ target <+: q ∧ ¬ place <+: q ∧ d.entry? q = some e := by
  by_cases hq : target <+: q
  · obtain ⟨rest, rfl⟩ := hq
    rw [entry?_move_append htarget hapart hinto] at he
    exact .inl ⟨rest, rfl, he⟩
  · by_cases hq' : place <+: q
    · rw [entry?_move htarget hapart hinto, if_neg hq, if_pos hq'] at he
      cases he
    · rw [entry?_move_of_apart htarget hapart hinto hq hq'] at he
      exact .inr ⟨hq, hq', he⟩

/-- An entry with a name after a move is the one that moved, one that was below it, or one that
stayed. -/
theorem named_of_move {place parent : Place} {n : Name} (hapart : ¬ parent ++ [n] <+: place)
    (hinto : ¬ place <+: parent ++ [n]) {q : Place} {m : Name} {e : Entry}
    (he : entry? (d.move place (parent ++ [n])) (q ++ [m]) = some e) :
    q = parent ∧ m = n
      ∨ (∃ rest, q = parent ++ [n] ++ rest ∧ d.entry? (place ++ rest ++ [m]) = some e)
      ∨ ¬ parent ++ [n] <+: q ++ [m] ∧ ¬ place <+: q ++ [m] ∧ d.entry? (q ++ [m]) = some e := by
  rcases origin_of_move (by simp) hapart hinto he with ⟨rest, hq, hcame⟩ | hstayed
  · rcases List.eq_nil_or_concat rest with rfl | ⟨rest, last, rfl⟩
    · rw [List.append_nil] at hq
      obtain ⟨rfl, hm⟩ := List.append_inj' hq rfl
      exact .inl ⟨rfl, List.singleton_inj.mp hm⟩
    · rw [List.concat_eq_append, ← List.append_assoc] at hq hcame
      obtain ⟨rfl, hm⟩ := List.append_inj' hq rfl
      obtain rfl := List.singleton_inj.mp hm
      exact .inr (.inl ⟨rest, rfl, hcame⟩)
  · exact .inr (.inr hstayed)

/-! ### Trees -/

/-- Discarding places with all that is below them leaves a tree. -/
theorem IsTree.discard (h : d.IsTree) {gone : Place → Bool}
    (hgone : ∀ q n, gone q = true → gone (q ++ [n]) = true) : (d.discard gone).IsTree := by
  have hentry {q : Place} {n : Name} {e : Entry}
      (he : entry? (d.discard gone) (q ++ [n]) = some e) :
      gone (q ++ [n]) = false ∧ d.entry? (q ++ [n]) = some e := by
    rw [entry?_discard, if_neg (by simp)] at he
    cases hq : gone (q ++ [n]) with
    | true => simp [hq] at he
    | false => exact ⟨rfl, by simpa [hq] using he⟩
  have hdirectory {q : Place} (hq : gone q = false) (he : d.entry? q = some .directory) :
      entry? (d.discard gone) q = some .directory := by
    rw [entry?_discard]
    simp [hq, he]
  refine ⟨fun place n e he => ?_, fun place n e he => ?_, fun place t he => ?_, fun place hc => ?_⟩
  · obtain ⟨hstays, he⟩ := hentry he
    refine hdirectory ?_ (h.parent place n e he)
    by_contra hplace
    rw [hgone place n (by simpa using hplace)] at hstays
    cases hstays
  · exact h.name place n e (hentry he).2
  · rw [entry?_discard] at he
    by_cases hplace : place = []
    · rw [if_pos hplace] at he
      cases he
    · rw [if_neg hplace] at he
      split at he
      · cases he
      · exact h.target place t he
  · cases hcurrent : d.current with
    | here p =>
      by_cases hp : gone p = true
      · simp [Disk.discard, hcurrent, hp] at hc
      · have hsame : p = place := by simpa [Disk.discard, hcurrent, hp] using hc
        rw [← hsame]
        exact hdirectory (by simpa using hp) (h.current p hcurrent)
    | removed parent => simp [Disk.discard, hcurrent] at hc

theorem IsTree.erase (h : d.IsTree) (place : Place) : (d.erase place).IsTree := by
  refine h.discard fun q n hq => ?_
  rw [List.isPrefixOf_iff_prefix] at hq ⊢
  exact hq.trans (List.prefix_append q [n])

theorem IsTree.clear (h : d.IsTree) (place : Place) : (d.clear place).IsTree := by
  refine h.discard fun q n hq => ?_
  rw [isBelow, Bool.and_eq_true, List.isPrefixOf_iff_prefix] at hq ⊢
  refine ⟨hq.1.trans (List.prefix_append q [n]), ?_⟩
  have hlength := hq.1.length_le
  simp only [bne_iff_ne, ne_eq]
  rintro rfl
  rw [List.length_append, List.length_singleton] at hlength
  omega

/-- Putting an entry in a directory leaves a tree, unless it takes the place of a directory. -/
theorem IsTree.put (h : d.IsTree) {parent : Place} {n : Name} {e : Entry}
    (hparent : d.entry? parent = some .directory) (hn : IsEntryName n)
    (htarget : ∀ t, e = .link t → 0 ∉ t.bytes)
    (hold : d.entry? (parent ++ [n]) ≠ some .directory) : (d.put (parent ++ [n]) e).IsTree := by
  have hentry (q : Place) := @entry?_put d (parent ++ [n]) (by simp) e q
  have hdirectory {q : Place} (he : d.entry? q = some .directory) :
      entry? (d.put (parent ++ [n]) e) q = some .directory := by
    rw [hentry, if_neg, he]
    rintro rfl
    exact hold he
  refine ⟨fun q m e' he => ?_, fun q m e' he => ?_, fun q t he => ?_, fun q hc => ?_⟩
  · rw [hentry] at he
    split at he
    · next hsame =>
      obtain ⟨rfl, -⟩ := List.append_inj' hsame rfl
      exact hdirectory hparent
    · exact hdirectory (h.parent q m e' he)
  · rw [hentry] at he
    split at he
    · next hsame =>
      obtain ⟨-, hm⟩ := List.append_inj' hsame rfl
      obtain rfl := List.singleton_inj.mp hm
      exact hn
    · exact h.name q m e' he
  · rw [hentry] at he
    split at he
    · exact htarget t (Option.some.inj he)
    · exact h.target q t he
  · exact hdirectory (h.current q hc)

/-- Moving an entry to a free name, or to that of an entry with nothing below it, leaves a tree. -/
theorem IsTree.move (h : d.IsTree) {place parent : Place} {n : Name} {e : Entry}
    (he : d.entry? place = some e) (hinto : ¬ place <+: parent ++ [n])
    (hparent : d.entry? parent = some .directory) (hn : IsEntryName n)
    (hbelow : ∀ rest, rest ≠ [] → d.entry? (parent ++ [n] ++ rest) = none) :
    (d.move place (parent ++ [n])).IsTree := by
  have htarget : parent ++ [n] ≠ [] := by simp
  have hapart : ¬ parent ++ [n] <+: place := by
    rintro ⟨rest, rfl⟩
    by_cases hrest : rest = []
    · exact hinto (by simp [hrest])
    · rw [hbelow rest hrest] at he
      cases he
  have hcarried (rest : Place) := @entry?_move_append d _ _ htarget hapart hinto rest
  have hkept {q : Place} (hq : ¬ parent ++ [n] <+: q) (hq' : ¬ place <+: q) :=
    @entry?_move_of_apart d _ _ htarget hapart hinto q hq hq'
  have hparent' : entry? (d.move place (parent ++ [n])) parent = some .directory := by
    rw [hkept, hparent]
    · intro hunder
      have hlength := hunder.length_le
      rw [List.length_append, List.length_singleton] at hlength
      omega
    · intro hunder
      exact hinto (hunder.trans (List.prefix_append parent [n]))
  refine ⟨fun q m e' he' => ?_, fun q m e' he' => ?_, fun q t he' => ?_, fun q hc => ?_⟩
  · rcases named_of_move hapart hinto he' with ⟨rfl, -⟩ | ⟨rest, rfl, hcame⟩ | ⟨hq, hq', hstayed⟩
    · exact hparent'
    · rw [hcarried]
      exact h.parent (place ++ rest) m e' hcame
    · rw [hkept (fun hunder => hq (hunder.trans (List.prefix_append q [m])))
        (fun hunder => hq' (hunder.trans (List.prefix_append q [m])))]
      exact h.parent q m e' hstayed
  · rcases named_of_move hapart hinto he' with ⟨-, rfl⟩ | ⟨rest, -, hcame⟩ | ⟨-, -, hstayed⟩
    · exact hn
    · exact h.name (place ++ rest) m e' hcame
    · exact h.name q m e' hstayed
  · rcases origin_of_move htarget hapart hinto he' with ⟨rest, -, hcame⟩ | ⟨-, -, hstayed⟩
    · exact h.target _ t hcame
    · exact h.target q t hstayed
  · cases hcurrent : d.current with
    | removed gone => simp [Disk.move, Disk.erase, Disk.discard, hcurrent] at hc
    | here p =>
      have hp := h.current p hcurrent
      by_cases hgone : parent ++ [n] <+: p
      · simp [Disk.move, Disk.erase, Disk.discard, hcurrent, hgone] at hc
      · have hq : carried place (parent ++ [n]) p = q := by
          simpa [Disk.move, Disk.erase, Disk.discard, hcurrent, hgone] using hc
        rw [← hq, carried]
        by_cases hmoves : place <+: p
        · obtain ⟨rest, rfl⟩ := hmoves
          rw [if_pos (by simp), List.drop_left, hcarried]
          exact hp
        · rw [if_neg (by simpa using hmoves), hkept hgone hmoves]
          exact hp

/-! ### Edits -/

/-- Writing over a file leaves a tree. -/
theorem IsTree.overwrite (h : d.IsTree) {place : Place} {old : List UInt8} {since : Moment}
    (he : d.entry? place = some (.file old since)) (content : List UInt8) (modified : Moment) :
    (d.put place (.file content modified)).IsTree := by
  rcases List.eq_nil_or_concat place with rfl | ⟨parent, n, rfl⟩
  · cases he
  · rw [List.concat_eq_append] at he ⊢
    refine h.put (h.parent parent n _ he) (h.name parent n _ he) (fun t => Entry.noConfusion) ?_
    rw [he]
    exact fun hdir => Entry.noConfusion (Option.some.inj hdir)

/-- Creating an entry at a free name in a directory leaves a tree. -/
theorem IsTree.create (h : d.IsTree) {m : Manner} {place : Place} {asDirectory : Bool}
    (hfree : d.IsSound m (.absent place asDirectory)) {e : Entry}
    (htarget : ∀ t, e = .link t → 0 ∉ t.bytes) : (d.put place e).IsTree := by
  obtain ⟨hnone, parent, n, rfl, hparent, hn⟩ := hfree
  refine h.put hparent hn htarget ?_
  rw [hnone]
  exact nofun

theorem IsTree.makeAlong (h : d.IsTree) {place : Place} (hplace : d.IsFirm place)
    {names : List Name} (hnames : ∀ n ∈ names, IsClean n) : (d.makeAlong place names).IsTree := by
  induction names generalizing d place with
  | nil => exact h
  | cons n rest ih =>
    obtain ⟨hn, hrest⟩ := List.forall_mem_cons.mp hnames
    have hclean : ∀ n' ∈ [n], IsClean n' := by simpa using hn
    have hsound := h.isSound_walk { follow := true } linkLimit hplace hclean
    rw [Disk.makeAlong]
    cases hwalk : d.walk { follow := true } linkLimit place [n] with
    | found next e =>
      rw [hwalk] at hsound
      exact ih h ⟨e, hsound.1, hsound.2 rfl⟩ hrest
    | absent next asDirectory =>
      rw [hwalk] at hsound
      by_cases hnext : next = place ++ [n]
      · simp only [hnext, beq_self_eq_true, if_true]
        rw [hnext] at hsound
        refine ih (h.create hsound fun t => Entry.noConfusion) (isFirm_of_directory ?_) hrest
        rw [entry?_put (by simp), if_pos rfl]
      · simp only [beq_eq_false_iff_ne.mpr hnext]
        exact h
    | detached => exact h
    | refused fault => exact h

/-- A condition under which the paths of edits can be followed: the current directory is there, or at
least its parent is. -/
def IsRooted (d : Disk) : Prop :=
  ∀ parent, d.current = .removed parent → d.entry? parent = some .directory

theorem isRooted_of_here {place : Place} (h : d.current = .here place) : d.IsRooted := by
  intro parent hremoved
  rw [h] at hremoved
  cases hremoved

/-- The disk with nothing on it. -/
theorem isTree_empty : ({} : Disk).IsTree := by
  have hnone (place : Place) (n : Name) : entry? {} (place ++ [n]) = none := by
    rw [entry?_of_ne_nil (by simp)]
    rfl
  refine ⟨fun place n e he => ?_, fun place n e he => ?_, fun place t he => ?_, fun place hc => ?_⟩
  · rw [hnone] at he
    cases he
  · rw [hnone] at he
    cases he
  · rcases List.eq_nil_or_concat place with rfl | ⟨parent, n, rfl⟩
    · cases he
    · rw [List.concat_eq_append, hnone] at he
      cases he
  · cases hc
    rfl

theorem mem_of_pathFault? {p : Path} (h : pathFault? p = none) : 0 ∉ p.bytes := by
  unfold pathFault? at h
  split at h
  · cases h
  · next hzero => simpa using hzero

theorem IsTree.isSound_locate (h : d.IsTree) (hroot : d.IsRooted) (follow : Bool) (p : Path) :
    d.IsSound { follow } (d.locate follow p) := by
  unfold locate
  cases hfault : pathFault? p with
  | some fault => trivial
  | none => exact h.isSound_walkPath (mem_of_pathFault? hfault) (.inr hroot) { follow }

theorem IsTree.isSound_nameAt (h : d.IsTree) (hroot : d.IsRooted) (p : Path) :
    d.IsSound { follow := false } (d.nameAt p) := by
  unfold nameAt
  cases hfault : pathFault? p with
  | some fault => trivial
  | none =>
    by_cases hname : p.endsInName = true
    · simp only [hname, if_true]
      refine h.isSound_walkPath (fun hzero => mem_of_pathFault? hfault ?_) (.inr hroot) _
      have hmem := (List.dropWhile_suffix _).subset (List.mem_reverse.mp hzero)
      exact List.mem_reverse.mp hmem
    · simp only [hname]
      trivial

theorem IsTree.removeDirectory (h : d.IsTree) (p : Path) : (d.removeDirectory p).IsTree := by
  unfold Disk.removeDirectory
  split
  · split
    · exact h.erase _
    · exact h
  · exact h

theorem IsTree.makeDirectories (h : d.IsTree) (hroot : d.IsRooted) (p : Path) :
    (d.makeDirectories p).IsTree := by
  have halong {place : Place} {names : List Name} (hzero : 0 ∉ p.bytes)
      (hbegin : d.start p = .ok (place, names)) :
      (d.makeAlong place (namesToMake p names)).IsTree := by
    have hsound := h.isSound_start hzero (.inr hroot)
    rw [hbegin] at hsound
    refine h.makeAlong hsound.1 fun n hn => hsound.2 n ?_
    unfold namesToMake at hn
    split at hn
    · exact (List.mem_filter.mp (List.dropLast_subset _ hn)).1
    · exact (List.mem_filter.mp hn).1
  by_cases hzero : 0 ∈ p.bytes
  · have hlocate : d.locate false p = .refused .nulByte := by
      rw [locate, pathFault?, if_pos (by simpa using hzero)]
    rw [Disk.makeDirectories, hlocate]
    exact h
  · unfold Disk.makeDirectories
    split
    · next hbegin => exact halong hzero hbegin
    · next hbegin => exact halong hzero hbegin
    · exact h

theorem eq_none_of_isEmptyAt {target rest : Place} (h : d.isEmptyAt target = true)
    (hrest : rest ≠ []) : d.entry? (target ++ rest) = none := by
  rw [entry?_of_ne_nil (List.append_ne_nil_of_right_ne_nil target hrest), List.lookup_eq_none_iff]
  rintro ⟨q, e⟩ hmem
  rw [isEmptyAt, Bool.not_eq_true', List.any_eq_false] at h
  have hq := h (q, e) hmem
  simp only [bne_iff_ne, ne_eq]
  rintro rfl
  exact hq (by simp [isBelow, hrest])

/-- An entry that may be replaced has nothing below it. -/
theorem IsTree.eq_none_of_mayReplace (h : d.IsTree) {e old : Entry} {target rest : Place}
    (hold : d.entry? target = some old) (hreplace : d.mayReplace e target old = true)
    (hrest : rest ≠ []) : d.entry? (target ++ rest) = none := by
  by_cases hdir : e.isDirectory = true
  · rw [mayReplace, if_pos hdir, Bool.and_eq_true] at hreplace
    exact eq_none_of_isEmptyAt hreplace.2 hrest
  · rw [mayReplace, if_neg hdir] at hreplace
    by_contra hsome
    obtain ⟨e', he'⟩ := Option.ne_none_iff_exists'.mp hsome
    have htarget := h.directory_above he' (List.prefix_append target rest) (by simpa using hrest.symm)
    rw [hold] at htarget
    rw [Option.some.inj htarget] at hreplace
    cases hreplace

theorem IsTree.rename (h : d.IsTree) (hroot : d.IsRooted) (path newPath : Path) :
    (d.edit (.rename path newPath)).IsTree := by
  have hsound := h.isSound_nameAt hroot path
  have hsound' := h.isSound_nameAt hroot newPath
  rw [Disk.edit]
  split
  · next place e target old hfound hfound' =>
    rw [hfound] at hsound
    rw [hfound'] at hsound'
    split
    · exact h
    · next hmay =>
      simp only [Bool.or_eq_true, not_or, List.isPrefixOf_iff_prefix, Bool.not_eq_true',
        Bool.not_eq_false] at hmay
      obtain ⟨⟨-, hinto⟩, hreplace⟩ := hmay
      have hbelow (rest : Place) (hrest : rest ≠ []) : d.entry? (target ++ rest) = none :=
        h.eq_none_of_mayReplace hsound'.1 hreplace hrest
      rcases List.eq_nil_or_concat target with rfl | ⟨parent, n, rfl⟩
      · -- nothing replaces the root, for the entry that moves is below it
        have hplace : place ≠ [] := by
          rintro rfl
          exact hinto (List.prefix_refl [])
        have hnone := hbelow place hplace
        rw [List.nil_append, hsound.1] at hnone
        cases hnone
      · rw [List.concat_eq_append] at hinto hbelow hsound' ⊢
        exact h.move hsound.1 hinto (h.parent parent n old hsound'.1)
          (h.name parent n old hsound'.1) hbelow
  · next place e target asDirectory hfound hfree =>
    rw [hfound] at hsound
    rw [hfree] at hsound'
    split
    · exact h
    · next hmay =>
      simp only [Bool.or_eq_true, not_or, List.isPrefixOf_iff_prefix] at hmay
      obtain ⟨hnone, parent, n, rfl, hparent, hn⟩ := hsound'
      refine h.move hsound.1 hmay.2 hparent hn fun rest hrest => ?_
      by_contra hsome
      obtain ⟨e', he'⟩ := Option.ne_none_iff_exists'.mp hsome
      rw [h.directory_above he' (List.prefix_append _ rest) (by simpa using hrest.symm)] at hnone
      cases hnone
  · exact h

/-- **Edits keep a disk a tree**, as long as its paths can be followed. -/
theorem IsTree.edit (h : d.IsTree) (hroot : d.IsRooted) (change : Edit) : (d.edit change).IsTree := by
  cases change with
  | write path content modified =>
    have hsound := h.isSound_locate hroot true path
    rw [Disk.edit]
    split
    · next place old since hfound =>
      rw [hfound] at hsound
      exact h.overwrite hsound.1 content modified
    · next place hfree =>
      rw [hfree] at hsound
      exact h.create hsound fun t => Entry.noConfusion
    · exact h
  | append path content modified =>
    have hsound := h.isSound_locate hroot true path
    rw [Disk.edit]
    split
    · next place old since hfound =>
      rw [hfound] at hsound
      exact h.overwrite hsound.1 _ modified
    · exact h
  | touch path modified =>
    have hsound := h.isSound_locate hroot true path
    rw [Disk.edit]
    split
    · next place old since hfound =>
      rw [hfound] at hsound
      exact h.overwrite hsound.1 _ modified
    · exact h
  | remove path =>
    rw [Disk.edit]
    split
    · split
      · exact h
      · exact h.erase _
    · exact h
  | makeDirectory path => exact h.makeDirectories hroot path
  | removeTree path =>
    rw [Disk.edit]
    split
    · exact h.erase _
    · exact (h.clear _).removeDirectory path
    · exact h
  | rename path newPath => exact h.rename hroot path newPath
  | link path target =>
    have hsound := h.isSound_locate hroot false path
    rw [Disk.edit]
    split
    · next place hfree =>
      rw [hfree] at hsound
      cases hfault : pathFault? target with
      | some fault => exact h
      | none =>
        refine h.create hsound fun t ht => ?_
        cases ht
        exact mem_of_pathFault? hfault
    · exact h

end FileWatch.Disk

import Mathlib.Data.List.Induction
import FileWatch.Disk
import FileWatch.Proofs.Path.Components

/-! # Walking — where following a path can end

In a tree (`Disk.IsTree`) every entry stands in a directory under a name of its own, so all places
on the way to an entry are directories (`IsTree.directory_above`). A walk that starts in a
directory stays in the tree: it ends at an entry that is there, which is no link if links are
followed, or at a free name in a directory (`isSound_walkPath`). A walk step by step that finds an
entry finds what a walk without that care finds (`walkPath_of_stepwise`).
-/

namespace FileWatch

/-! ### Names -/

/-- Whether a name can stand in a directory. -/
structure IsEntryName (n : Name) : Prop where
  is_name : Path.isName n = true
  not_dotDot : n ≠ Path.dotDot
  no_slash : Path.slash ∉ n
  no_nul : 0 ∉ n
  short : n.length ≤ Disk.longestName

/-- Whether a name holds no separator and no zero byte. -/
def IsClean (n : Name) : Prop := Path.slash ∉ n ∧ 0 ∉ n

namespace Path

theorem isClean_of_mem_pieces {p : Path} (hp : 0 ∉ p.bytes) {n : Name} (hn : n ∈ p.pieces) :
    IsClean n :=
  ⟨fun h => (mem_of_mem_splitOn hn h).2 rfl, fun h => hp (mem_of_mem_splitOn hn h).1⟩

end Path

namespace Disk

/-! ### Trees -/

/-- Whether the entries of a disk make a tree: each stands in a directory, under a name, and the
current directory is one of them as long as it is there. -/
structure IsTree (d : Disk) : Prop where
  parent : ∀ place n e, d.entry? (place ++ [n]) = some e → d.entry? place = some .directory
  name : ∀ place n e, d.entry? (place ++ [n]) = some e → IsEntryName n
  target : ∀ place t, d.entry? place = some (.link t) → 0 ∉ t.bytes
  current : ∀ place, d.current = .here place → d.entry? place = some .directory

variable {d : Disk}

theorem isDirectoryAt_iff {place : Place} :
    d.isDirectoryAt place = true ↔ d.entry? place = some .directory := by
  rw [isDirectoryAt, beq_iff_eq]

/-- The way to an entry leads through directories. -/
theorem IsTree.directory_above (h : d.IsTree) {place q : Place} {e : Entry}
    (he : d.entry? place = some e) (hq : q <+: place) (hne : q ≠ place) :
    d.entry? q = some .directory := by
  induction place using List.reverseRecOn generalizing e with
  | nil => exact absurd (List.prefix_nil.mp hq) hne
  | append_singleton place n ih =>
    have hplace := h.parent place n e he
    rcases List.prefix_concat_iff.mp hq with rfl | hq
    · exact absurd rfl hne
    · by_cases hsame : q = place
      · rw [hsame]
        exact hplace
      · exact ih hplace hq hsame

theorem IsTree.directory_dropLast (h : d.IsTree) {place : Place}
    (he : d.entry? place = some .directory) : d.entry? place.dropLast = some .directory := by
  by_cases hsame : place.dropLast = place
  · rw [hsame]
    exact he
  · have habove := List.dropLast_prefix place
    exact h.directory_above he habove hsame

/-- The names on the way to an entry. -/
theorem IsTree.isEntryName (h : d.IsTree) {place : Place} {e : Entry}
    (he : d.entry? place = some e) {n : Name} (hn : n ∈ place) : IsEntryName n := by
  induction place using List.reverseRecOn generalizing e with
  | nil => cases hn
  | append_singleton place m ih =>
    rcases List.mem_append.mp hn with hn | hn
    · exact ih (h.parent place m e he) hn
    · obtain rfl : n = m := List.mem_singleton.mp hn
      exact h.name place n e he

/-! ### One name after the other -/

/-- What a walk does at a name: it ends, goes on from a place, or goes on behind a link. -/
inductive Stride where
  | stop (w : Walk)
  | onward (place : Place)
  | through (target : Path)

/-- What a walk does at the name `n`, with the names of `rest` still to come. -/
def stride (d : Disk) (m : Manner) (place : Place) (n : Name) (rest : List Name) : Stride :=
  if !d.isDirectoryAt place then .stop (.refused .notADirectory)
  else if !Path.isName n then .onward place
  else if n == Path.dotDot then .onward place.dropLast
  else if n.length > longestName then .stop (.refused .nameTooLong)
  else if m.isStepwise && isFar (place ++ [n]) then .stop (.refused .nameTooLong)
  else match d.entry? (place ++ [n]) with
    | none =>
      .stop (if rest.all List.isEmpty then .absent (place ++ [n]) (!rest.isEmpty)
        else .refused .notFound)
    | some (.link target) =>
      if rest.isEmpty && !m.follow then .stop (.found (place ++ [n]) (.link target))
      else .through target
    | some _ =>
      if m.isStepwise && needDirectory rest && isFar (place ++ [n, []]) then
        .stop (.refused .nameTooLong)
      else .onward (place ++ [n])

theorem walkNames_cons (m : Manner) (onLink : Place → List Name → Walk) (place : Place) (n : Name)
    (rest : List Name) :
    d.walkNames m onLink place (n :: rest) = match d.stride m place n rest with
      | .stop w => w
      | .onward next => d.walkNames m onLink next rest
      | .through target =>
        onLink (if target.isAbsolute then [] else place) (target.pieces ++ rest) := by
  rw [walkNames, stride]
  repeat' split
  all_goals simp_all

/-! ### Where walks end -/

/-- Whether a walk ended in the tree: at an entry that is there, and that is no link if links are
followed, or at a free name in a directory. -/
def IsSound (d : Disk) (m : Manner) : Walk → Prop
  | .found place e => d.entry? place = some e ∧ (m.follow = true → ∀ t, e ≠ .link t)
  | .absent place _ => d.entry? place = none ∧
      ∃ parent n, place = parent ++ [n] ∧ d.entry? parent = some .directory ∧ IsEntryName n
  | .detached | .refused _ => True

/-- Whether names can be followed from a place: an entry is there that is no link. -/
def IsFirm (d : Disk) (place : Place) : Prop := ∃ e, d.entry? place = some e ∧ ∀ t, e ≠ .link t

theorem isFirm_of_directory {place : Place} (h : d.entry? place = some .directory) :
    d.IsFirm place := ⟨.directory, h, fun _ => Entry.noConfusion⟩

/-- Whether a walk stays in the tree at a name behind a place. -/
def IsSoundStride (d : Disk) (m : Manner) (place : Place) : Stride → Prop
  | .stop w => d.IsSound m w
  | .onward next => d.IsFirm next
  | .through target => 0 ∉ target.bytes ∧ d.entry? place = some .directory

/-- A walk stays in the tree at each name. -/
theorem IsTree.isSound_stride (h : d.IsTree) (m : Manner) (place : Place) {n : Name}
    (hn : IsClean n) (rest : List Name) : d.IsSoundStride m place (d.stride m place n rest) := by
  unfold stride
  by_cases hplace : d.isDirectoryAt place = true
  swap
  · rw [if_pos (by simp [hplace])]
    trivial
  rw [if_neg (by simp [hplace])]
  have hdir := isDirectoryAt_iff.mp hplace
  by_cases hname : Path.isName n = true
  swap
  · rw [if_pos (by simp [hname])]
    exact isFirm_of_directory hdir
  rw [if_neg (by simp [hname])]
  by_cases hup : n = Path.dotDot
  · rw [if_pos (by simp [hup])]
    exact isFirm_of_directory (h.directory_dropLast hdir)
  rw [if_neg (by simp [hup])]
  by_cases hlong : n.length > longestName
  · rw [if_pos hlong]
    trivial
  rw [if_neg hlong]
  have hentry : IsEntryName n := ⟨hname, hup, hn.1, hn.2, Nat.le_of_not_lt hlong⟩
  by_cases hfar : (m.isStepwise && isFar (place ++ [n])) = true
  · rw [if_pos hfar]
    trivial
  rw [if_neg hfar]
  have honward (hfirm : d.IsFirm (place ++ [n])) : d.IsSoundStride m place
      (if m.isStepwise && needDirectory rest && isFar (place ++ [n, []]) then
        .stop (.refused .nameTooLong)
      else .onward (place ++ [n])) := by
    split
    · trivial
    · exact hfirm
  cases he : d.entry? (place ++ [n]) with
  | none =>
    by_cases hlast : rest.all List.isEmpty = true
    · simp only [hlast, if_true]
      exact ⟨he, place, n, rfl, hdir, hentry⟩
    · simp only [hlast]
      trivial
  | some e =>
    cases e with
    | link t =>
      by_cases hlast : (rest.isEmpty && !m.follow) = true
      · simp only [hlast, if_true]
        refine ⟨he, fun hfollow => ?_⟩
        simp [hfollow] at hlast
      · simp only [hlast]
        exact ⟨h.target _ t he, hdir⟩
    | file content modified => exact honward ⟨_, he, fun _ => Entry.noConfusion⟩
    | directory => exact honward (isFirm_of_directory he)

/-- A walk that starts in the tree ends in it. -/
theorem IsTree.isSound_walkNames (h : d.IsTree) {m : Manner} {onLink : Place → List Name → Walk}
    (honLink : ∀ place names, d.IsFirm place → (∀ n ∈ names, IsClean n) →
      d.IsSound m (onLink place names)) {place : Place} (hplace : d.IsFirm place)
    {names : List Name} (hnames : ∀ n ∈ names, IsClean n) :
    d.IsSound m (d.walkNames m onLink place names) := by
  induction names generalizing place with
  | nil =>
    obtain ⟨e, he, hlink⟩ := hplace
    rw [walkNames, he]
    exact ⟨he, fun _ => hlink⟩
  | cons n rest ih =>
    obtain ⟨hn, hrest⟩ := List.forall_mem_cons.mp hnames
    have hstride := h.isSound_stride m place hn rest
    rw [walkNames_cons]
    cases hs : d.stride m place n rest with
    | stop w =>
      rw [hs] at hstride
      exact hstride
    | onward next =>
      rw [hs] at hstride
      exact ih hstride hrest
    | through target =>
      rw [hs] at hstride
      obtain ⟨htarget, hdir⟩ := hstride
      refine honLink _ _ ?_ fun n' hn' => ?_
      · split
        · exact isFirm_of_directory rfl
        · exact isFirm_of_directory hdir
      · rcases List.mem_append.mp hn' with hn' | hn'
        · exact Path.isClean_of_mem_pieces htarget hn'
        · exact hrest n' hn'

theorem IsTree.isSound_walk (h : d.IsTree) (m : Manner) (links : Nat) {place : Place}
    (hplace : d.IsFirm place) {names : List Name} (hnames : ∀ n ∈ names, IsClean n) :
    d.IsSound m (d.walk m links place names) := by
  induction links generalizing place names with
  | zero =>
    rw [walk]
    refine h.isSound_walkNames (fun _ _ _ _ => ?_) hplace hnames
    trivial
  | succ links ih =>
    rw [walk]
    exact h.isSound_walkNames (fun _ _ hplace hnames => ih hplace hnames) hplace hnames

/-- Whether a path can be followed: it starts in a directory of the tree, or has an end at once. A
current directory that was removed leaves its parent to start from. -/
def StartsIn (d : Disk) (p : Path) : Prop :=
  p.isAbsolute = true ∨ ∀ parent, d.current = .removed parent → d.entry? parent = some .directory

theorem IsTree.isSound_start (h : d.IsTree) {p : Path} (hp : 0 ∉ p.bytes) (hstart : d.StartsIn p) :
    match d.start p with
    | .ok (place, names) => d.IsFirm place ∧ ∀ n ∈ names, IsClean n
    | .error w => ∀ m, d.IsSound m w := by
  have hpieces : ∀ n ∈ p.pieces, IsClean n := fun n hn => Path.isClean_of_mem_pieces hp hn
  unfold start
  by_cases habs : p.isAbsolute = true
  · rw [if_pos habs]
    exact ⟨isFirm_of_directory rfl, hpieces⟩
  rw [if_neg habs]
  cases hcurrent : d.current with
  | here place => exact ⟨isFirm_of_directory (h.current place hcurrent), hpieces⟩
  | removed parent =>
    have hparent : d.entry? parent = some .directory :=
      (hstart.resolve_left habs) parent hcurrent
    have hdrop := List.dropWhile_suffix (l := p.pieces) fun n => !Path.isName n
    cases hnames : p.pieces.dropWhile fun n => !Path.isName n with
    | nil => exact fun _ => trivial
    | cons n rest =>
      rw [hnames] at hdrop
      by_cases hup : n = Path.dotDot
      · simp only [hup, beq_self_eq_true, if_true]
        exact ⟨isFirm_of_directory hparent, fun n' hn' =>
          hpieces n' (hdrop.subset (List.mem_cons_of_mem n hn'))⟩
      · have hother : (n == Path.dotDot) = false := by simp [hup]
        simp only [hother, Bool.false_eq_true, if_false]
        exact fun _ => trivial

theorem IsTree.isSound_walkPath (h : d.IsTree) {p : Path} (hp : 0 ∉ p.bytes)
    (hstart : d.StartsIn p) (m : Manner) : d.IsSound m (d.walkPath m p) := by
  have hsound := h.isSound_start hp hstart
  unfold walkPath
  cases hbegin : d.start p with
  | error w =>
    rw [hbegin] at hsound
    exact hsound m
  | ok begin =>
    rw [hbegin] at hsound
    exact h.isSound_walk m linkLimit hsound.1 hsound.2

/-! ### Step by step -/

/-- Step by step, a walk does the same at a name, or gives up. -/
theorem stride_of_stepwise (follow : Bool) (place : Place) (n : Name) (rest : List Name) :
    d.stride ⟨follow, true⟩ place n rest = .stop (.refused .nameTooLong)
      ∨ d.stride ⟨follow, true⟩ place n rest = d.stride ⟨follow, false⟩ place n rest := by
  unfold stride
  simp only [Bool.true_and, Bool.false_and, Bool.false_eq_true, if_false]
  repeat' split
  all_goals simp

/-- What a walk finds step by step, it finds without. -/
theorem walkNames_of_stepwise {follow : Bool} {careful onLink : Place → List Name → Walk}
    (honLink : ∀ place names q e, careful place names = .found q e →
      onLink place names = .found q e) {place : Place} {names : List Name} {q : Place} {e : Entry}
    (h : d.walkNames ⟨follow, true⟩ careful place names = .found q e) :
    d.walkNames ⟨follow, false⟩ onLink place names = .found q e := by
  induction names generalizing place with
  | nil =>
    rw [walkNames] at h ⊢
    exact h
  | cons n rest ih =>
    rw [walkNames_cons] at h ⊢
    rcases stride_of_stepwise (d := d) follow place n rest with hs | hs
    · rw [hs] at h
      cases h
    · rw [← hs]
      cases hstride : d.stride ⟨follow, true⟩ place n rest with
      | stop w =>
        rw [hstride] at h
        exact h
      | onward next =>
        rw [hstride] at h
        exact ih h
      | through target =>
        rw [hstride] at h
        exact honLink _ _ _ _ h

theorem walk_of_stepwise {follow : Bool} {links : Nat} {place : Place} {names : List Name}
    {q : Place} {e : Entry} (h : d.walk ⟨follow, true⟩ links place names = .found q e) :
    d.walk ⟨follow, false⟩ links place names = .found q e := by
  induction links generalizing place names q e with
  | zero =>
    rw [walk] at h ⊢
    exact walkNames_of_stepwise (fun _ _ _ _ h => h) h
  | succ links ih =>
    rw [walk] at h ⊢
    exact walkNames_of_stepwise (fun _ _ _ _ h => ih h) h

theorem walkPath_of_stepwise {follow : Bool} {p : Path} {q : Place} {e : Entry}
    (h : d.walkPath ⟨follow, true⟩ p = .found q e) : d.walkPath ⟨follow, false⟩ p = .found q e := by
  unfold walkPath at h ⊢
  cases hstart : d.start p with
  | error w =>
    rw [hstart] at h
    exact h
  | ok begin =>
    rw [hstart] at h
    exact walk_of_stepwise h

end Disk

end FileWatch

import FileWatch.Proofs.Reporting.Relevance
import FileWatch.Proofs.Scope.Membership

/-! # Additivity — what a mask asks for, it asks for class by class

The plain rule of reporting: an entry of an event is reported when its path is in the scope and the
mask shares a class with those that the entry needs (`isReported`). Masks that tell files and
directories apart need a look at the disk for that, others do without; either way the plain rule
holds (`isAskedFor_eq`), and what is said of an event are its entries under that rule, in their
order (`notificationsOf_eq_filter`). So a union of masks asks for what its parts ask for.
-/

namespace FileWatch

/-! ### What an entry needs -/

/-- Whether an event states that its entries are directories or that they are not. -/
def EventKind.statedDirectory? : EventKind → Option Bool
  | .create .file | .remove .file => some false
  | .create .folder | .remove .folder => some true
  | _ => none

/-- Whether the entry of an event at a path is a directory, if the event or else the disk tells. -/
def isDirectory? (d : Disk) (kind : EventKind) (p : Path) : Option Bool :=
  kind.statedDirectory?.or ((d.linkStatus p).toOption.map Entry.isDirectory)

/-- The class of directories or that of files, and both for what may be either. -/
def entryClasses : Option Bool → EventMask
  | some true => .ofClasses [.dirName]
  | some false => .ofClasses [.fileName]
  | none => .nameChanges

/-- The classes of which one is needed to report an event at a path. -/
def neededClasses (d : Disk) (kind : EventKind) (p : Path) : EventMask :=
  match kind.reporting? with
  | none => .empty
  | some (_, .anyOf classes) => classes
  | some (_, .nameOfEntry) => entryClasses (isDirectory? d kind p)

theorem contains_entryClasses (told : Option Bool) :
    EventMask.nameChanges.contains (entryClasses told) = true := by
  rcases told with _ | _ | _ <;> decide

theorem intersects_entryClasses (told : Option Bool) :
    EventMask.nameChanges.intersects (entryClasses told) = true := by
  rcases told with _ | _ | _ <;> decide

theorem nameClasses_eq (d : Disk) (kind : EventKind) (p : Path) :
    nameClasses d kind p = entryClasses (isDirectory? d kind p) := by
  unfold nameClasses isDirectory?
  rcases d.linkStatus p with fault | entry
  · cases kind with
    | create entry | remove entry => cases entry <;> rfl
    | any | access _ | modify _ | other => rfl
  · have hlook : (if entry.isDirectory then EventMask.ofClasses [.dirName]
        else .ofClasses [.fileName]) = entryClasses (some entry.isDirectory) := by
      cases entry.isDirectory <;> rfl
    cases kind with
    | create stated | remove stated =>
      cases stated with
      | file | folder => rfl
      | any | other => exact hlook
    | any | access _ | modify _ | other => exact hlook

/-- The shortcuts agree with the plain rule: a mask asks for a change of names when it shares a
class with those that the entry needs. -/
theorem isAskedFor_nameOfEntry (d : Disk) (mask : EventMask) (kind : EventKind) (p : Path) :
    isAskedFor d mask kind p .nameOfEntry = mask.intersects (nameClasses d kind p) := by
  rw [isAskedFor, nameClasses_eq]
  generalize isDirectory? d kind p = told
  by_cases hboth : mask.contains .nameChanges = true
  · rw [if_pos hboth, EventMask.intersects_of_contains hboth (intersects_entryClasses told)]
  · rw [if_neg hboth]
    cases hone : mask.intersects .nameChanges with
    | true => rfl
    | false =>
      rw [EventMask.intersects_eq_false hone (contains_entryClasses told)]
      rfl

theorem isAskedFor_eq {kind : EventKind} {reporting : Reporting} {requirement : Requirement}
    (h : kind.reporting? = some (reporting, requirement)) (d : Disk) (mask : EventMask) (p : Path) :
    isAskedFor d mask kind p requirement = mask.intersects (neededClasses d kind p) := by
  rw [neededClasses, h]
  cases requirement with
  | anyOf classes => rfl
  | nameOfEntry => rw [isAskedFor_nameOfEntry, nameClasses_eq]

/-- Only bits that stand for classes are needed. -/
theorem all_contains_neededClasses (d : Disk) (kind : EventKind) (p : Path) :
    EventMask.all.contains (neededClasses d kind p) = true := by
  have hcontent : EventMask.all.contains .contentChanges = true := by decide
  have hnames : EventMask.all.contains .nameChanges = true := by decide
  unfold neededClasses
  rcases hreporting : kind.reporting? with _ | ⟨reporting, requirement⟩
  · exact EventMask.contains_iff.mpr BitVec.and_zero
  · obtain ⟨-, rfl⟩ | ⟨-, classes, rfl, hclasses⟩ := EventKind.reporting?_cases hreporting
    · exact EventMask.contains_trans hnames (contains_entryClasses _)
    · exact EventMask.contains_trans hcontent hclasses

/-! ### What is said are entries under the plain rule -/

/-- What there is to say of the entries of an event, in the order of its paths: of each path, or of
the two names of a renamed entry. -/
def sayings (e : NativeEvent) : List Notification :=
  match e.kind.reporting? with
  | none => []
  | some (.each kind, _) => e.paths.map (Notification.mk kind)
  | some (.renamePair, _) => List.zipWith Notification.mk [.renamedFrom, .renamedTo] e.paths

/-- The plain rule: the path is in the scope and the mask shares a class with those needed. -/
def isReported (d : Disk) (mask : EventMask) (scope : Scope) (kind : EventKind) (p : Path) : Bool :=
  scope.contains p && mask.intersects (neededClasses d kind p)

theorem paths_sayings_prefix (e : NativeEvent) :
    (sayings e).map Notification.path <+: e.paths := by
  unfold sayings
  rcases e.kind.reporting? with _ | ⟨_ | _, requirement⟩
  · exact List.nil_prefix
  · rw [List.map_map]
    exact (List.map_id e.paths).symm ▸ List.prefix_rfl
  · rcases e.paths with _ | ⟨old, _ | ⟨new, rest⟩⟩
    · exact List.nil_prefix
    · exact List.prefix_rfl
    · exact ⟨rest, rfl⟩

/-- What is said of an event are its entries under the plain rule. -/
theorem notificationsOf_eq_filter (d : Disk) (mask : EventMask) (scope : Scope) (e : NativeEvent) :
    notificationsOf d mask scope e =
      (sayings e).filter fun n => isReported d mask scope e.kind n.path := by
  rcases hreporting : e.kind.reporting? with _ | ⟨reporting, requirement⟩
  · rw [notificationsOf, sayings, hreporting]
    rfl
  · have hkept : (fun p => scope.contains p && isAskedFor d mask e.kind p requirement) =
        isReported d mask scope e.kind := by
      funext p
      rw [isAskedFor_eq hreporting, isReported]
    rw [notificationsOf, sayings, hreporting]
    simp only [hkept]
    cases reporting with
    | each kind =>
      rw [List.filter_map]
      rfl
    | renamePair =>
      rcases e.paths with _ | ⟨old, _ | ⟨new, rest⟩⟩
      · rfl
      · cases hold : isReported d mask scope e.kind old <;> simp [Option.filter, hold]
      · cases hold : isReported d mask scope e.kind old <;>
          cases hnew : isReported d mask scope e.kind new <;>
            simp [Option.filter, hold, hnew]

variable (d : Disk) (scope : Scope) (kind : EventKind) (p : Path)

/-- A union of masks asks for what its parts ask for. -/
theorem isReported_or (m₁ m₂ : EventMask) :
    isReported d (m₁ ||| m₂) scope kind p =
      (isReported d m₁ scope kind p || isReported d m₂ scope kind p) := by
  rw [isReported, EventMask.intersects_or, Bool.and_or_distrib_left]
  rfl

theorem isReported_known (mask : EventMask) :
    isReported d mask.known scope kind p = isReported d mask scope kind p := by
  rw [isReported, EventMask.intersects_known (all_contains_neededClasses d kind p)]
  rfl

variable {d scope kind p}

theorem isReported_mono {m₁ m₂ : EventMask} (h : m₂.contains m₁ = true)
    (hp : isReported d m₁ scope kind p = true) : isReported d m₂ scope kind p = true := by
  obtain ⟨hscope, hshared⟩ := Bool.and_eq_true_iff.mp hp
  exact Bool.and_eq_true_iff.mpr ⟨hscope, EventMask.intersects_of_contains h hshared⟩

/-- What the flat scope reports, the recursive one does. -/
theorem isReported_recursive {mask : EventMask} {root : Path}
    (hp : isReported d mask ⟨root, false⟩ kind p = true) :
    isReported d mask ⟨root, true⟩ kind p = true := by
  obtain ⟨hscope, hshared⟩ := Bool.and_eq_true_iff.mp hp
  have hstarts := ((Scope.contains_iff _ _).mp hscope).1
  exact Bool.and_eq_true_iff.mpr
    ⟨(Scope.contains_iff _ _).mpr ⟨hstarts, .inl rfl⟩, hshared⟩

/-- The disk is of no account for a mask that does not tell files and directories apart, and for
events that do so themselves. -/
theorem isReported_of_any_disk {mask : EventMask} (d' : Disk)
    (h : mask.contains .nameChanges = true ∨ mask.intersects .nameChanges = false
      ∨ kind.statedDirectory?.isSome = true) :
    isReported d mask scope kind p = isReported d' mask scope kind p := by
  unfold isReported neededClasses
  rcases kind.reporting? with _ | ⟨reporting, _ | classes⟩
  · rfl
  · congr 1
    rcases h with hboth | hnone | hstated
    · rw [EventMask.intersects_of_contains hboth (intersects_entryClasses _),
        EventMask.intersects_of_contains hboth (intersects_entryClasses _)]
    · rw [EventMask.intersects_eq_false hnone (contains_entryClasses _),
        EventMask.intersects_eq_false hnone (contains_entryClasses _)]
    · obtain ⟨directory, hstated⟩ := Option.isSome_iff_exists.mp hstated
      rw [isDirectory?, isDirectory?, hstated, Option.some_or, Option.some_or]
  · rfl

/-- **What a mask asks for, it asks for class by class.** What is said of an event are its entries
under the plain rule, in the order of its paths, whatever shortcuts are taken: a mask admits a
change of names when it shares a class with those that the entry needs, which are the one of files,
the one of directories, or both where neither the event nor the disk tells. So an entry is reported
under a union of masks exactly when it is under one of them, a larger mask reports no less, and bits
that stand for no class do not matter. The disk does not matter to masks with both classes of names
or neither, nor for events that state what their entries are. A flat scope leaves out some of what
the recursive one with the same root has, and changes no order. -/
theorem reporting_additive (d : Disk) (scope : Scope) (e : NativeEvent) :
    ((∀ mask, notificationsOf d mask scope e =
        (sayings e).filter fun n => isReported d mask scope e.kind n.path)
      ∧ (sayings e).map Notification.path <+: e.paths)
      ∧ (∀ m₁ m₂ p, isReported d (m₁ ||| m₂) scope e.kind p = true ↔
          isReported d m₁ scope e.kind p = true ∨ isReported d m₂ scope e.kind p = true)
      ∧ (∀ m₁ m₂ n, n ∈ notificationsOf d (m₁ ||| m₂) scope e ↔
          n ∈ notificationsOf d m₁ scope e ∨ n ∈ notificationsOf d m₂ scope e)
      ∧ (∀ m₁ m₂, m₂.contains m₁ = true →
          (notificationsOf d m₁ scope e).Sublist (notificationsOf d m₂ scope e))
      ∧ (∀ mask, notificationsOf d mask.known scope e = notificationsOf d mask scope e)
      ∧ (∀ mask kind p, isAskedFor d mask kind p .nameOfEntry =
            mask.intersects (nameClasses d kind p)
          ∧ nameClasses d kind p = entryClasses (isDirectory? d kind p))
      ∧ (∀ mask d', (mask.contains .nameChanges = true ∨ mask.intersects .nameChanges = false
            ∨ e.kind.statedDirectory?.isSome = true) →
          notificationsOf d mask scope e = notificationsOf d' mask scope e)
      ∧ ∀ mask root, (notificationsOf d mask ⟨root, false⟩ e).Sublist
          (notificationsOf d mask ⟨root, true⟩ e) := by
  refine ⟨⟨fun mask => notificationsOf_eq_filter d mask scope e, paths_sayings_prefix e⟩,
    fun m₁ m₂ p => ?_, fun m₁ m₂ n => ?_, fun m₁ m₂ h => ?_, fun mask => ?_,
    fun mask kind p => ⟨isAskedFor_nameOfEntry d mask kind p, nameClasses_eq d kind p⟩,
    fun mask d' h => ?_, fun mask root => ?_⟩
  · rw [isReported_or, Bool.or_eq_true]
  · simp only [notificationsOf_eq_filter, List.mem_filter, isReported_or, Bool.or_eq_true,
      and_or_left]
  · rw [notificationsOf_eq_filter, notificationsOf_eq_filter]
    exact List.monotone_filter_right _ fun n hn => isReported_mono h hn
  · simp only [notificationsOf_eq_filter, isReported_known]
  · simp only [notificationsOf_eq_filter]
    exact List.filter_congr fun n _ => isReported_of_any_disk d' h
  · rw [notificationsOf_eq_filter, notificationsOf_eq_filter]
    exact List.monotone_filter_right _ fun n hn => isReported_recursive hn

/-- A file, a directory and what is gone appear in a directory: masks of one class of names report
one of the first two and the last, so their union reports all, and needs no disk for it. -/
theorem reporting_additive_of_mixed_entries :
    let d : Disk :=
      { entries := [([[0x66]], .file [] ⟨0, 0⟩), ([[0x64]], .directory)] }
    let file : Path := ⟨[0x2F, 0x66]⟩
    let directory : Path := ⟨[0x2F, 0x64]⟩
    let gone : Path := ⟨[0x2F, 0x78]⟩
    let e : NativeEvent := ⟨.create .any, [file, directory, gone], none, false⟩
    let scope : Scope := ⟨⟨[0x2F]⟩, false⟩
    let files : EventMask := .single .fileName
    let directories : EventMask := ⟨0x102⟩
    notificationsOf d files scope e = [⟨.added, file⟩, ⟨.added, gone⟩]
      ∧ notificationsOf d directories scope e = [⟨.added, directory⟩, ⟨.added, gone⟩]
      ∧ (∀ n, n ∈ notificationsOf d (files ||| directories) scope e ↔
          n ∈ [⟨.added, file⟩, ⟨.added, gone⟩] ∨ n ∈ [⟨.added, directory⟩, ⟨.added, gone⟩])
      ∧ ∀ d', notificationsOf d (files ||| directories) scope e =
          notificationsOf d' (files ||| directories) scope e := by
  intro d file directory gone e scope files directories
  have hfiles : notificationsOf d files scope e = [⟨.added, file⟩, ⟨.added, gone⟩] := by
    decide +kernel
  have hdirectories :
      notificationsOf d directories scope e = [⟨.added, directory⟩, ⟨.added, gone⟩] := by
    decide +kernel
  obtain ⟨-, -, hunion, -, -, -, hdisk, -⟩ := reporting_additive d scope e
  refine ⟨hfiles, hdirectories, fun n => ?_, fun d' => ?_⟩
  · rw [hunion, hfiles, hdirectories]
  · exact hdisk (files ||| directories) d' (.inl (by decide))

end FileWatch

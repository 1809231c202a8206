import FileWatch.Proofs.EventMask.Algebra
import FileWatch.Reporting

/-! # Relevance — what is said of an event is asked for

Whatever `notificationsOf` says of an event is about one of its paths, in the scope, and the mask
asks for it: modifications need a class of content, changes of names a class of names, and what only
tells of an access needs the class of accesses (`relevant_of_mem_notificationsOf`).
-/

namespace FileWatch

/-- Whether an event of the kind only says that an entry was accessed. -/
def EventKind.tellsOfAccess : EventKind → Bool
  | .access _ => true
  | .modify (.metadata .accessTime) => true
  | _ => false

/-! ### What the kinds of events need -/

theorem MetadataKind.classes_subset (m : MetadataKind) :
    EventMask.contentChanges.contains m.classes = true := by
  cases m <;> decide

/-- Modifications need a class of content, and changes of names a class of names. -/
theorem EventKind.reporting?_cases {k : EventKind} {reporting : Reporting}
    {requirement : Requirement} (h : k.reporting? = some (reporting, requirement)) :
    (reporting ≠ .each .modified ∧ requirement = .nameOfEntry)
      ∨ reporting = .each .modified ∧ ∃ classes, requirement = .anyOf classes
        ∧ EventMask.contentChanges.contains classes = true := by
  cases k with
  | any => cases h
  | other => cases h
  | create kind => cases h; exact .inl ⟨by decide, rfl⟩
  | remove kind => cases h; exact .inl ⟨by decide, rfl⟩
  | access kind =>
    cases kind with
    | opened mode => cases h
    | closed mode => cases h
    | any | read | other => cases h; exact .inr ⟨rfl, _, rfl, by decide⟩
  | modify kind =>
    cases kind with
    | any | other => cases h; exact .inr ⟨rfl, _, rfl, by decide⟩
    | data kind => cases h; exact .inr ⟨rfl, _, rfl, by decide⟩
    | metadata kind => cases h; exact .inr ⟨rfl, _, rfl, kind.classes_subset⟩
    | name side => cases side <;> cases h <;> exact .inl ⟨by decide, rfl⟩

/-- What only tells of an access needs the class of accesses. -/
theorem EventKind.requirement_of_tellsOfAccess {k : EventKind} {reporting : Reporting}
    {requirement : Requirement} (hk : k.tellsOfAccess = true)
    (h : k.reporting? = some (reporting, requirement)) :
    requirement = .anyOf (.ofClasses [.lastAccess]) := by
  cases k with
  | access kind =>
    cases kind with
    | opened mode => cases h
    | closed mode => cases h
    | any | read | other => cases h; rfl
  | modify kind =>
    cases kind with
    | metadata kind =>
      cases kind with
      | accessTime => cases h; rfl
      | any | writeTime | permissions | ownership | extended | other => cases hk
    | any | other | data _ | name _ => cases hk
  | any | other | create _ | remove _ => cases hk

theorem intersects_of_isAskedFor_name {d : Disk} {mask : EventMask} {kind : EventKind} {p : Path}
    (h : isAskedFor d mask kind p .nameOfEntry = true) :
    mask.intersects .nameChanges = true := by
  cases hmask : mask.intersects .nameChanges with
  | true => rfl
  | false =>
    -- a mask with both classes would share them
    have hnone : ¬mask.contains .nameChanges = true := by
      intro hall
      have hself : mask.bits &&& EventMask.nameChanges.bits = EventMask.nameChanges.bits :=
        EventMask.contains_iff.mp hall
      have hshared : mask.intersects .nameChanges = true := by
        rw [EventMask.intersects_iff, hself]
        decide
      rw [hmask] at hshared
      cases hshared
    rw [isAskedFor, if_neg hnone, hmask] at h
    cases h

/-! ### What is said -/

variable {d : Disk} {mask : EventMask} {scope : Scope} {e : NativeEvent} {n : Notification}

/-- What is said of an event is about one of its paths, which is in the scope and asked for. -/
theorem mem_notificationsOf (h : n ∈ notificationsOf d mask scope e) :
    ∃ reporting requirement, e.kind.reporting? = some (reporting, requirement)
      ∧ n.path ∈ e.paths ∧ scope.contains n.path = true
      ∧ isAskedFor d mask e.kind n.path requirement = true
      ∧ (n.kind = .modified ↔ reporting = .each .modified) := by
  unfold notificationsOf at h
  rcases hreporting : e.kind.reporting? with _ | ⟨reporting, requirement⟩
  · rw [hreporting] at h
    cases h
  · rw [hreporting] at h
    refine ⟨reporting, requirement, rfl, ?_⟩
    cases reporting with
    | each kind =>
      obtain ⟨p, hp, rfl⟩ := List.mem_map.mp h
      obtain ⟨hmem, hkept⟩ := List.mem_filter.mp hp
      obtain ⟨hscope, hasked⟩ := Bool.and_eq_true_iff.mp hkept
      refine ⟨hmem, hscope, hasked, ?_⟩
      constructor
      · intro hkind
        exact congrArg Reporting.each hkind
      · intro hkind
        exact Reporting.each.inj hkind
    | renamePair =>
      rcases List.mem_append.mp h with h | h
      · obtain ⟨p, hp, rfl⟩ := Option.map_eq_some_iff.mp (Option.mem_toList.mp h)
        obtain ⟨hget, hkept⟩ := Option.filter_eq_some_iff.mp hp
        obtain ⟨hscope, hasked⟩ := Bool.and_eq_true_iff.mp hkept
        exact ⟨List.mem_of_getElem? hget, hscope, hasked, nofun, nofun⟩
      · obtain ⟨p, hp, rfl⟩ := Option.map_eq_some_iff.mp (Option.mem_toList.mp h)
        obtain ⟨hget, hkept⟩ := Option.filter_eq_some_iff.mp hp
        obtain ⟨hscope, hasked⟩ := Bool.and_eq_true_iff.mp hkept
        exact ⟨List.mem_of_getElem? hget, hscope, hasked, nofun, nofun⟩

/-- Whether a notification may come from an event under a mask and a scope: it names a path of the
event that is in the scope, and the mask asks for it. -/
structure Relevant (mask : EventMask) (scope : Scope) (e : NativeEvent) (n : Notification) :
    Prop where
  path : n.path ∈ e.paths
  scope : scope.contains n.path = true
  content : n.kind = .modified → mask.intersects .contentChanges = true
  names : n.kind ≠ .modified → mask.intersects .nameChanges = true
  access : e.kind.tellsOfAccess = true → mask.intersects (.single .lastAccess) = true

theorem relevant_of_mem_notificationsOf (h : n ∈ notificationsOf d mask scope e) :
    Relevant mask scope e n := by
  obtain ⟨reporting, requirement, hreporting, hpath, hscope, hasked, hkind⟩ :=
    mem_notificationsOf h
  have hneeds := EventKind.reporting?_cases hreporting
  refine ⟨hpath, hscope, fun hmodified => ?_, fun hname => ?_, fun haccess => ?_⟩
  · obtain ⟨hother, -⟩ | ⟨-, classes, rfl, hclasses⟩ := hneeds
    · exact absurd (hkind.mp hmodified) hother
    · exact EventMask.intersects_mono hasked hclasses
  · obtain ⟨-, rfl⟩ | ⟨hmodified, -⟩ := hneeds
    · exact intersects_of_isAskedFor_name hasked
    · exact absurd (hkind.mpr hmodified) hname
  · obtain rfl := EventKind.requirement_of_tellsOfAccess haccess hreporting
    have hone : EventMask.ofClasses [.lastAccess] = .single .lastAccess := by decide
    rwa [← hone]

end FileWatch

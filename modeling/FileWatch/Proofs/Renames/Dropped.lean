import FileWatch.Proofs.Renames.Listener

/-! # Dropped — what was said of a rename when its combined event is dropped

A combined event is dropped after a half with its tracker, and the listener has said what that half
names in its scope (`mem_queuedFor_of_half`). This is all of the rename if its halves come in pairs
(`both_said_of_bothHalves`). But the history knows trackers only: after one half alone the combined
event is dropped as well, and its other side is never said.
-/

namespace FileWatch

/-- Whether some arrivals tell of both halves of a rename, each with the tracker `t`. -/
structure BothHalves (as : List Arrival) (old new : Path) (t : Nat) : Prop where
  old : ∃ a ∈ as, a.event.kind = .modify (.name .oldName) ∧ a.event.tracker = some t
    ∧ old ∈ a.event.paths
  new : ∃ a ∈ as, a.event.kind = .modify (.name .newName) ∧ a.event.tracker = some t
    ∧ new ∈ a.event.paths

namespace Listener

variable {l : Listener} {past : List Arrival} {old new : Path} {t : Nat}

/-- Each path of a half that is in the scope is said. -/
theorem mem_queuedFor_of_half (hmask : l.events.contains .nameChanges = true) {a : Arrival}
    (ha : a ∈ past) (hhalf : a.event.half? = some t) (htracker : a.event.tracker = some t)
    {p : Path} (hp : p ∈ a.event.paths) (hscope : l.scope.contains p = true) :
    ⟨a.event.halfKind, p⟩ ∈ l.queuedFor t past := by
  obtain ⟨before, rest, rfl⟩ := List.append_of_mem ha
  refine batch_subset_queuedFor htracker ?_
  rw [batch_of_half hmask hhalf]
  exact List.mem_map_of_mem (List.mem_filter.mpr ⟨hp, hscope⟩)

theorem both_said_of_bothHalves (hmask : l.events.contains .nameChanges = true)
    (hold : l.scope.contains old = true) (hnew : l.scope.contains new = true)
    (h : BothHalves past old new t) :
    ⟨.renamedFrom, old⟩ ∈ l.queuedFor t past ∧ ⟨.renamedTo, new⟩ ∈ l.queuedFor t past := by
  obtain ⟨a, ha, hkind, htracker, hp⟩ := h.old
  obtain ⟨a', ha', hkind', htracker', hp'⟩ := h.new
  have hhalf : a.event.half? = some t :=
    NativeEvent.half?_of_isRename ⟨hkind, rfl, htracker⟩ RenameSide.noConfusion
  have hhalf' : a'.event.half? = some t :=
    NativeEvent.half?_of_isRename ⟨hkind', rfl, htracker'⟩ RenameSide.noConfusion
  have hsaid := mem_queuedFor_of_half hmask ha hhalf htracker hp hold
  have hsaid' := mem_queuedFor_of_half hmask ha' hhalf' htracker' hp' hnew
  rw [NativeEvent.halfKind, if_pos hkind] at hsaid
  rw [NativeEvent.halfKind, if_neg (by rw [hkind']; decide)] at hsaid'
  exact ⟨hsaid, hsaid'⟩

/-- **What was said of a dropped rename.** When a combined event is dropped, a half with its tracker
has come since the latest combined event with it, and what it names in the scope was said. Both
sides of the rename were said if such a half never comes without the other one. -/
theorem both_sides_said_of_dropped {scope : Scope} {mask : EventMask} (debounce : Duration)
    {whole : Arrival} (hmask : mask.contains .nameChanges = true)
    (hold : scope.contains old = true) (hnew : scope.contains new = true)
    (hwhole : whole.event.IsRename .both [old, new] t)
    (hdropped : (((fresh scope mask debounce).after past).renames.record whole.event).1 = true) :
    let l := fresh scope mask debounce
    (∃ a ∈ past, a.event ∈ sinceCombined t (past.map Arrival.event) ∧ a.event.half? = some t
        ∧ ∀ p ∈ a.event.paths, scope.contains p = true →
          ⟨a.event.halfKind, p⟩ ∈ l.queuedFor t past)
      ∧ (((∃ e ∈ sinceCombined t (past.map Arrival.event), e.half? = some t) →
            BothHalves past old new t) →
          ⟨.renamedFrom, old⟩ ∈ l.queuedFor t past ∧ ⟨.renamedTo, new⟩ ∈ l.queuedFor t past) := by
  intro l
  rw [renames_after, RenameHistory.record_of_combined (NativeEvent.combined?_of_isRename hwhole)]
    at hdropped
  obtain ⟨e, he, hhalf⟩ :=
    RenameHistory.exists_half_of_mem_seen (List.contains_iff_mem.mp hdropped)
  refine ⟨?_, fun hpaired => both_said_of_bothHalves hmask hold hnew (hpaired ⟨e, he, hhalf⟩)⟩
  obtain ⟨a, ha, rfl⟩ := List.mem_map.mp ((List.rtakeWhile_suffix _ _).subset he)
  refine ⟨a, ha, he, hhalf, fun p hp hscope => ?_⟩
  exact mem_queuedFor_of_half hmask ha hhalf (NativeEvent.tracker_of_half hhalf) hp hscope

/-- A combined event that comes after its two halves is dropped, and both sides were said. -/
theorem both_sides_said_of_halves :
    let a : Path := .ofString "/w/a"
    let b : Path := .ofString "/w/b"
    let rename (side : RenameSide) (paths : List Path) : Arrival :=
      ⟨⟨.modify (.name side), paths, some 7, false⟩, {}, 0⟩
    let past : List Arrival := [rename .newName [b], rename .oldName [a]]
    let l := fresh ⟨.ofString "/w", false⟩ .nameChanges ⟨1000⟩
    ((l.after past).renames.record (rename .both [a, b]).event).1 = true
      ∧ BothHalves past a b 7
      ∧ ⟨.renamedFrom, a⟩ ∈ l.queuedFor 7 past ∧ ⟨.renamedTo, b⟩ ∈ l.queuedFor 7 past := by
  intro a b rename past l
  have hdropped : ((l.after past).renames.record (rename .both [a, b]).event).1 = true := by decide
  have hhalves : BothHalves past a b 7 :=
    ⟨⟨rename .oldName [a], by simp [past], rfl, rfl, by simp [rename]⟩,
      ⟨rename .newName [b], by simp [past], rfl, rfl, by simp [rename]⟩⟩
  have hsaid := both_sides_said_of_dropped ⟨1000⟩ (by decide) (by decide) (by decide)
    ⟨rfl, rfl, rfl⟩ hdropped
  exact ⟨hdropped, hhalves, hsaid.2 fun _ => hhalves⟩

/-- Not every dropped combined event was said on both sides: after the half with the old name alone
it is dropped too, and nothing is said of the new one. -/
theorem dropped_side_not_said :
    ¬ ∀ (scope : Scope) (mask : EventMask) (debounce : Duration) (old new : Path) (t : Nat)
        (past : List Arrival) (whole : Arrival),
        mask.contains .nameChanges = true → scope.contains old = true →
        scope.contains new = true → whole.event.IsRename .both [old, new] t →
        let l := fresh scope mask debounce
        ((l.after past).renames.record whole.event).1 = true →
          ⟨.renamedFrom, old⟩ ∈ l.queuedFor t past ∧ ⟨.renamedTo, new⟩ ∈ l.queuedFor t past := by
  intro h
  let a : Path := .ofString "/w/a"
  let b : Path := .ofString "/w/b"
  have hsaid := h ⟨.ofString "/w", false⟩ .nameChanges ⟨0⟩ a b 7
    [⟨⟨.modify (.name .oldName), [a], some 7, false⟩, {}, 0⟩]
    ⟨⟨.modify (.name .both), [a, b], some 7, false⟩, {}, 0⟩
    (by decide) (by decide) (by decide) ⟨rfl, rfl, rfl⟩ (by decide)
  exact absurd hsaid.2 (by decide)

end Listener

end FileWatch

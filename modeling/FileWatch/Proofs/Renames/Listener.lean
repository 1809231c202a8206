import FileWatch.Proofs.Native.Lifecycle
import FileWatch.Proofs.Renames.History

/-! # Listener — what is said of a rename

A listener whose mask has both classes of names says of a half each of its paths in the scope
(`batch_of_half`), whatever its debouncer has seen, and of a combined event nothing when the history
takes it for a repetition. So a rename that is heard of in two halves and then as a whole is said
once (`Listener.batches_of_rename`).
-/

namespace FileWatch

/-- An event that a listener handles, with the disk and the time that it meets. -/
structure Arrival where
  event : NativeEvent
  disk : Disk
  now : Nat

namespace NativeEvent

/-- Whether an event tells of a rename, on the given side and with the given paths and tracker. -/
structure IsRename (e : NativeEvent) (side : RenameSide) (paths : List Path) (t : Nat) : Prop where
  kind : e.kind = .modify (.name side)
  paths : e.paths = paths
  tracker : e.tracker = some t

/-- As what the paths of a half are reported. -/
def halfKind (e : NativeEvent) : ChangeKind :=
  if e.kind = .modify (.name .oldName) then .renamedFrom else .renamedTo

variable {e : NativeEvent} {paths : List Path} {t : Nat}

theorem exists_side_of_half (h : e.half? = some t) :
    ∃ side, side ≠ .both ∧ e.kind = .modify (.name side) := by
  unfold half? at h
  split at h
  · cases h
  · next side hside hkind => exact ⟨side, hside, hkind⟩
  · cases h

theorem tracker_of_half (h : e.half? = some t) : e.tracker = some t := by
  unfold half? at h
  split at h
  · cases h
  · exact h
  · cases h

theorem combined?_of_not_both (h : e.kind ≠ .modify (.name .both)) : e.combined? = none := by
  unfold combined?
  split
  · next hkind => exact absurd hkind h
  · rfl

theorem half?_of_not_rename (h : (∀ side, e.kind ≠ .modify (.name side)) ∨ e.tracker = none) :
    e.half? = none := by
  unfold half?
  split
  · rfl
  · next side _ hkind => exact h.elim (fun hside => absurd hkind (hside side)) id
  · rfl

theorem combined?_of_not_rename (h : (∀ side, e.kind ≠ .modify (.name side)) ∨ e.tracker = none) :
    e.combined? = none := by
  unfold combined?
  split
  · next hkind => exact h.elim (fun hside => absurd hkind (hside .both)) id
  · rfl

theorem half?_of_isRename {side : RenameSide} (h : e.IsRename side paths t) (hside : side ≠ .both) :
    e.half? = some t := by
  unfold half?
  rw [h.kind]
  cases side with
  | both => exact absurd rfl hside
  | any | newName | oldName | other => exact h.tracker

theorem combined?_of_isRename (h : e.IsRename .both paths t) : e.combined? = some t := by
  unfold combined?
  rw [h.kind]
  exact h.tracker

end NativeEvent

/-! ### One event -/

theorem Debouncer.offer_of_nameChange (d : Debouncer) (now : Nat) {n : Notification}
    (h : n.kind ≠ .modified) : (d.offer n now).1 = true := by
  unfold offer
  cases d.isEnabled with
  | false => rfl
  | true => simp [ChangeKind.isNameChange, h]

/-- Changes of names are not held back. -/
theorem Debouncer.offerAll_of_nameChanges (d : Debouncer) (now : Nat) {ns : List Notification}
    (h : ∀ n ∈ ns, n.kind ≠ .modified) : (d.offerAll now ns).1 = ns := by
  induction ns generalizing d with
  | nil => rfl
  | cons n ns ih =>
    have hn := d.offer_of_nameChange now (h n (List.mem_cons_self ..))
    have hrest := ih (d.offer n now).2 fun n' hn' => h n' (List.mem_cons_of_mem n hn')
    simp [offerAll, hn, hrest]

/-- A mask with both classes of names reports a half for each of its paths in the scope. -/
theorem notificationsOf_of_half {mask : EventMask} (hmask : mask.contains .nameChanges = true)
    {e : NativeEvent} {t : Nat} (he : e.half? = some t) (d : Disk) (scope : Scope) :
    notificationsOf d mask scope e = (e.paths.filter scope.contains).map (⟨e.halfKind, ·⟩) := by
  obtain ⟨side, hside, hkind⟩ := NativeEvent.exists_side_of_half he
  have hreporting : e.kind.reporting? = some (.each e.halfKind, .nameOfEntry) := by
    rw [NativeEvent.halfKind, hkind]
    cases side with
    | both => exact absurd rfl hside
    | any | newName | oldName | other => rfl
  have hasked : ∀ p, isAskedFor d mask e.kind p .nameOfEntry = true := fun p => by
    rw [isAskedFor, if_pos hmask]
  rw [notificationsOf, hreporting]
  simp [hasked]

namespace Listener

variable {l : Listener} {e : NativeEvent} {t : Nat}

theorem renames_handle (l : Listener) (d : Disk) (now : Nat) (e : NativeEvent) :
    (l.handle d now e).2.renames = (l.renames.record e).2 := by
  rw [handle_eq]
  split <;> rfl

theorem handle_of_repetition (h : (l.renames.record e).1 = true) (d : Disk) (now : Nat) :
    (l.handle d now e).1 = [] := by
  rw [handle_eq, if_pos h]

theorem handle_of_half (hmask : l.events.contains .nameChanges = true) (he : e.half? = some t)
    (d : Disk) (now : Nat) :
    (l.handle d now e).1 = (e.paths.filter l.scope.contains).map (⟨e.halfKind, ·⟩) := by
  have hnew : ¬(l.renames.record e).1 = true := by
    rw [RenameHistory.record_of_half he]
    exact Bool.false_ne_true
  rw [handle_eq, if_neg hnew]
  show (l.debouncer.offerAll now (notificationsOf d l.events l.scope e)).1 = _
  rw [notificationsOf_of_half hmask he]
  refine l.debouncer.offerAll_of_nameChanges now fun n hn => ?_
  obtain ⟨p, -, rfl⟩ := List.mem_map.mp hn
  show e.halfKind ≠ .modified
  unfold NativeEvent.halfKind
  split <;> exact ChangeKind.noConfusion

/-! ### One event after the other -/

/-- The listener after one arrival after the other. -/
def after (l : Listener) : List Arrival → Listener
  | [] => l
  | a :: as => (l.handle a.disk a.now a.event).2.after as

/-- What a listener queues for an arrival, when others came before. -/
def batch (l : Listener) (past : List Arrival) (a : Arrival) : List Notification :=
  ((l.after past).handle a.disk a.now a.event).1

/-- What a listener queues for the arrivals that carry the tracker `t`. -/
def queuedFor (l : Listener) (t : Nat) : List Arrival → List Notification
  | [] => []
  | a :: as =>
    (if a.event.tracker = some t then (l.handle a.disk a.now a.event).1 else [])
      ++ (l.handle a.disk a.now a.event).2.queuedFor t as

theorem scope_after (l : Listener) (as : List Arrival) : (l.after as).scope = l.scope := by
  induction as generalizing l with
  | nil => rfl
  | cons a as ih => rw [after, ih, scope_handle]

theorem events_after (l : Listener) (as : List Arrival) : (l.after as).events = l.events := by
  induction as generalizing l with
  | nil => rfl
  | cons a as ih => rw [after, ih, events_handle]

theorem renames_after (l : Listener) (as : List Arrival) :
    (l.after as).renames = l.renames.after (as.map Arrival.event) := by
  induction as generalizing l with
  | nil => rfl
  | cons a as ih =>
    rw [after, ih, renames_handle]
    rfl

theorem batch_of_half (hmask : l.events.contains .nameChanges = true) {a : Arrival}
    (ha : a.event.half? = some t) (past : List Arrival) :
    l.batch past a = (a.event.paths.filter l.scope.contains).map (⟨a.event.halfKind, ·⟩) := by
  rw [batch, handle_of_half (by rwa [events_after]) ha, scope_after]

theorem batch_subset_queuedFor {past rest : List Arrival} {a : Arrival}
    (ha : a.event.tracker = some t) : l.batch past a ⊆ l.queuedFor t (past ++ a :: rest) := by
  induction past generalizing l with
  | nil =>
    rw [List.nil_append, queuedFor, if_pos ha]
    exact List.subset_append_left _ _
  | cons b past ih => exact List.Subset.trans ih (List.subset_append_right _ _)

end Listener

/-- The two halves of a rename are said, and the combined event after them is not. -/
theorem Listener.batches_of_rename {scope : Scope} {mask : EventMask} (debounce : Duration)
    {old new : Path} {t : Nat} {past between between' : List Arrival} {half half' whole : Arrival}
    (hmask : mask.contains .nameChanges = true) (hold : scope.contains old = true)
    (hnew : scope.contains new = true) (hhalf : half.event.IsRename .oldName [old] t)
    (hhalf' : half'.event.IsRename .newName [new] t)
    (hwhole : whole.event.IsRename .both [old, new] t)
    (hfirst : ∀ e ∈ sinceCombined t (past.map Arrival.event), e.half? ≠ some t)
    (hbetween : ∀ a ∈ between ++ half' :: between', a.event.combined? ≠ some t)
    (hcard : (otherTrackers t ((between ++ half' :: between').map Arrival.event)).card <
      RenameHistory.limit) :
    let l := fresh scope mask debounce
    l.batch past half ++ l.batch (past ++ half :: between) half'
        ++ l.batch (past ++ half :: (between ++ half' :: between')) whole =
      [⟨.renamedFrom, old⟩, ⟨.renamedTo, new⟩] := by
  intro l
  have ht := NativeEvent.half?_of_isRename hhalf RenameSide.noConfusion
  have ht' := NativeEvent.half?_of_isRename hhalf' RenameSide.noConfusion
  have hsaid : l.batch past half = [⟨.renamedFrom, old⟩] := by
    rw [batch_of_half hmask ht, hhalf.paths, NativeEvent.halfKind, if_pos hhalf.kind]
    simp [l, fresh, hold]
  have hsaid' : l.batch (past ++ half :: between) half' = [⟨.renamedTo, new⟩] := by
    have hkind : half'.event.kind ≠ .modify (.name .oldName) := by
      rw [hhalf'.kind]
      decide
    rw [batch_of_half hmask ht', hhalf'.paths, NativeEvent.halfKind, if_neg hkind]
    simp [l, fresh, hnew]
  have hheld : t ∈ (RenameHistory.empty.after ((past ++ half :: (between ++ half' :: between')).map
      Arrival.event)).seen := by
    rw [List.map_append, RenameHistory.after_append]
    refine RenameHistory.mem_seen_of_first_half (RenameHistory.bounded_empty.after _) ?_ ht ?_ hcard
    · intro hmem
      obtain ⟨e, he, hhalf⟩ := RenameHistory.exists_half_of_mem_seen hmem
      exact hfirst e he hhalf
    · exact List.forall_mem_map.mpr hbetween
  have hdropped : l.batch (past ++ half :: (between ++ half' :: between')) whole = [] := by
    refine handle_of_repetition ?_ whole.disk whole.now
    rw [renames_after, RenameHistory.record_of_combined (NativeEvent.combined?_of_isRename hwhole)]
    exact List.contains_iff_mem.mpr hheld
  rw [hsaid, hsaid', hdropped]
  rfl

/-- **A rename that is heard of three times is said once.** Events that are no renames or carry no
tracker, and halves, are no repetitions, and the former leave the history alone, which never holds
more than `limit` trackers, each once. A combined event is a repetition only if a half came after
the latest combined event with its tracker, and is one if fewer than `limit` other trackers came
after the first such half; `limit` are enough to lose it. So under a mask with both classes of names
a listener says the two halves of a rename and not the combined event after them, whatever else it
hears. -/
theorem rename_said_once :
    (∀ (h : RenameHistory) (e : NativeEvent),
        (∀ side, e.kind ≠ .modify (.name side)) ∨ e.tracker = none → h.record e = (false, h))
      ∧ (∀ (h : RenameHistory) (e : NativeEvent),
        e.kind ≠ .modify (.name .both) → (h.record e).1 = false)
      ∧ (∀ past : List NativeEvent,
        (RenameHistory.empty.after past).seen.length ≤ 64
          ∧ (RenameHistory.empty.after past).seen.Nodup)
      ∧ (∀ (past : List NativeEvent) (e : NativeEvent) (paths : List Path) (t : Nat),
        e.IsRename .both paths t →
          (((RenameHistory.empty.after past).record e).1 = true →
              ∃ half ∈ sinceCombined t past, half.half? = some t)
            ∧ ((∃ half ∈ sinceCombined t past, half.half? = some t) →
              (otherTrackers t (fromFirstHalf t (sinceCombined t past))).card < 64 →
                ((RenameHistory.empty.after past).record e).1 = true))
      ∧ (∀ (half e : NativeEvent) (paths : List Path) (t : Nat) (others : List NativeEvent)
          (trackers : List Nat), half.half? = some t → e.IsRename .both paths t →
          others.map NativeEvent.half? = trackers.map some → (t :: trackers).Nodup →
          64 ≤ trackers.length →
            ((RenameHistory.empty.after (half :: others)).record e).1 = false)
      ∧ (∀ (scope : Scope) (mask : EventMask) (debounce : Duration) (old new : Path) (t : Nat)
          (past between between' : List Arrival) (half half' whole : Arrival),
        mask.contains .nameChanges = true → scope.contains old = true →
        scope.contains new = true → half.event.IsRename .oldName [old] t →
        half'.event.IsRename .newName [new] t → whole.event.IsRename .both [old, new] t →
        (∀ e ∈ sinceCombined t (past.map Arrival.event), e.half? ≠ some t) →
        (∀ a ∈ between ++ half' :: between', a.event.combined? ≠ some t) →
        (otherTrackers t ((between ++ half' :: between').map Arrival.event)).card < 64 →
          let l := Listener.fresh scope mask debounce
          l.batch past half ++ l.batch (past ++ half :: between) half'
              ++ l.batch (past ++ half :: (between ++ half' :: between')) whole =
            [⟨.renamedFrom, old⟩, ⟨.renamedTo, new⟩]) := by
  refine ⟨fun h e he => ?_, fun h e he => ?_, fun past => ?_, fun past e paths t he => ?_, ?_, ?_⟩
  · exact RenameHistory.record_of_neither (NativeEvent.half?_of_not_rename he)
      (NativeEvent.combined?_of_not_rename he) h
  · cases hhalf : e.half? with
    | some t => rw [RenameHistory.record_of_half hhalf]
    | none =>
      rw [RenameHistory.record_of_neither hhalf (NativeEvent.combined?_of_not_both he)]
  · have hbounded := RenameHistory.bounded_empty.after past
    exact ⟨hbounded.length_le, hbounded.nodup⟩
  · rw [RenameHistory.record_of_combined (NativeEvent.combined?_of_isRename he)]
    refine ⟨fun h => ?_, fun hhalf hcard => ?_⟩
    · exact RenameHistory.exists_half_of_mem_seen (List.contains_iff_mem.mp h)
    · exact List.contains_iff_mem.mpr (RenameHistory.mem_seen_of_card_lt hhalf hcard)
  · intro half e paths t others trackers hhalf he hothers hnodup hlength
    rw [RenameHistory.record_of_combined (NativeEvent.combined?_of_isRename he)]
    have hgone := RenameHistory.notMem_seen_of_limit_halves hhalf hothers hnodup hlength
    exact Bool.eq_false_iff.mpr fun h => hgone (List.contains_iff_mem.mp h)
  · intro scope mask debounce old new t past between between' half half' whole hmask hold hnew
      hhalf hhalf' hwhole hfirst hbetween hcard
    exact Listener.batches_of_rename debounce hmask hold hnew hhalf hhalf' hwhole hfirst hbetween
      hcard

/-- A rename of `/w/a` to `/w/b`, with a tracker that was used before, among other renames. -/
theorem rename_said_once_among_others :
    let a : Path := .ofString "/w/a"
    let b : Path := .ofString "/w/b"
    let rename (side : RenameSide) (paths : List Path) (t : Nat) : Arrival :=
      ⟨⟨.modify (.name side), paths, some t, false⟩, {}, 0⟩
    let past : List Arrival := [rename .oldName [b] 7, rename .both [b, a] 7]
    let between : List Arrival := [rename .newName [a] 8]
    let between' : List Arrival := [rename .any [b] 9, rename .both [a, b] 8]
    let l := Listener.fresh ⟨.ofString "/w", false⟩ .nameChanges ⟨1000⟩
    (∀ e ∈ sinceCombined 7 (past.map Arrival.event), e.half? ≠ some 7)
      ∧ (otherTrackers 7 ((between ++ rename .newName [b] 7 :: between').map
          Arrival.event)).card < 64
      ∧ l.batch past (rename .oldName [a] 7)
          ++ l.batch (past ++ rename .oldName [a] 7 :: between) (rename .newName [b] 7)
          ++ l.batch (past ++ rename .oldName [a] 7 ::
            (between ++ rename .newName [b] 7 :: between')) (rename .both [a, b] 7) =
        [⟨.renamedFrom, a⟩, ⟨.renamedTo, b⟩] := by
  intro a b rename past between between' l
  have hfirst : ∀ e ∈ sinceCombined 7 (past.map Arrival.event), e.half? ≠ some 7 := by decide
  have hcard : (otherTrackers 7 ((between ++ rename .newName [b] 7 :: between').map
      Arrival.event)).card < 64 := by decide
  obtain ⟨-, -, -, -, -, hsaid⟩ := rename_said_once
  refine ⟨hfirst, hcard, ?_⟩
  exact hsaid ⟨.ofString "/w", false⟩ .nameChanges ⟨1000⟩ a b 7 past between between' _ _ _
    (by decide) (by decide) (by decide) ⟨rfl, rfl, rfl⟩ ⟨rfl, rfl, rfl⟩ ⟨rfl, rfl, rfl⟩ hfirst
    (by decide) hcard

end FileWatch

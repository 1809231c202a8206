import FileWatch.RenameHistory
import Mathlib.Data.List.DropRight
import Mathlib.Data.Finset.Card

/-! # History — which combined renames are taken for repetitions

A history holds the trackers of the latest halves, each once (`Bounded`). A tracker gets in with a
half and goes with its combined event, or when it is the oldest and a new one needs its place. For
that 64 other trackers must have come after it: fewer leave it in (`mem_seen_of_first_half`), and 64
new ones put it out (`notMem_seen_of_limit_halves`).
-/

namespace FileWatch

namespace NativeEvent

/-- The tracker of an event about one side of a rename. -/
def half? (e : NativeEvent) : Option Nat :=
  match e.kind with
  | .modify (.name .both) => none
  | .modify (.name _) => e.tracker
  | _ => none

/-- The tracker of an event about both sides of a rename. -/
def combined? (e : NativeEvent) : Option Nat :=
  match e.kind with
  | .modify (.name .both) => e.tracker
  | _ => none

theorem combined?_of_half {e : NativeEvent} {t : Nat} (h : e.half? = some t) :
    e.combined? = none := by
  unfold half? at h
  unfold combined?
  split at h <;> simp_all

theorem half?_of_combined {e : NativeEvent} {t : Nat} (h : e.combined? = some t) :
    e.half? = none := by
  cases hhalf : e.half? with
  | none => rfl
  | some u => rw [combined?_of_half hhalf] at h; cases h

end NativeEvent

/-- The other trackers of the halves among some events. -/
def otherTrackers (t : Nat) (events : List NativeEvent) : Finset Nat :=
  (events.filterMap NativeEvent.half?).toFinset.erase t

theorem otherTrackers_cons_of_none {e : NativeEvent} (h : e.half? = none) (t : Nat)
    (es : List NativeEvent) : otherTrackers t (e :: es) = otherTrackers t es := by
  rw [otherTrackers, List.filterMap_cons_none h]
  rfl

theorem otherTrackers_cons_self {e : NativeEvent} {t : Nat} (h : e.half? = some t)
    (es : List NativeEvent) : otherTrackers t (e :: es) = otherTrackers t es := by
  rw [otherTrackers, List.filterMap_cons_some h, List.toFinset_cons, Finset.erase_insert_eq_erase]
  rfl

theorem otherTrackers_cons_of_ne {e : NativeEvent} {t u : Nat} (h : e.half? = some u) (hne : u ≠ t)
    (es : List NativeEvent) : otherTrackers t (e :: es) = insert u (otherTrackers t es) := by
  rw [otherTrackers, List.filterMap_cons_some h, List.toFinset_cons,
    Finset.erase_insert_of_ne hne]
  rfl

theorem otherTrackers_subset_cons (t : Nat) (e : NativeEvent) (es : List NativeEvent) :
    otherTrackers t es ⊆ otherTrackers t (e :: es) := by
  cases hhalf : e.half? with
  | none => rw [otherTrackers_cons_of_none hhalf]
  | some u =>
    by_cases hut : u = t
    · rw [otherTrackers_cons_self (hut ▸ hhalf)]
    · rw [otherTrackers_cons_of_ne hhalf hut]
      exact Finset.subset_insert u _

/-- The events after the latest combined one with the tracker `t`, or all if there is none. -/
def sinceCombined (t : Nat) (events : List NativeEvent) : List NativeEvent :=
  events.rtakeWhile fun e => e.combined? ≠ some t

/-- The events from the first half with the tracker `t` on. -/
def fromFirstHalf (t : Nat) (events : List NativeEvent) : List NativeEvent :=
  events.dropWhile fun e => e.half? ≠ some t

theorem exists_first_half {t : Nat} {events : List NativeEvent}
    (h : ∃ e ∈ events, e.half? = some t) :
    ∃ earlier e later, events = earlier ++ e :: later ∧ (∀ e' ∈ earlier, e'.half? ≠ some t)
      ∧ e.half? = some t ∧ fromFirstHalf t events = e :: later := by
  induction events with
  | nil => simp at h
  | cons e events ih =>
    by_cases he : e.half? = some t
    · exact ⟨[], e, events, rfl, by simp, he, List.dropWhile_cons_of_neg (by simpa using he)⟩
    · have hrest : ∃ e' ∈ events, e'.half? = some t := by simpa [he] using h
      obtain ⟨earlier, e', later, rfl, hearlier, he', hfrom⟩ := ih hrest
      refine ⟨e :: earlier, e', later, rfl, List.forall_mem_cons.mpr ⟨he, hearlier⟩, he', ?_⟩
      rw [fromFirstHalf, List.dropWhile_cons_of_pos (by simpa using he)]
      exact hfrom

namespace RenameHistory

variable {h : RenameHistory} {e : NativeEvent} {es : List NativeEvent} {t u : Nat}

/-! ### One event -/

theorem record_of_combined (he : e.combined? = some t) (h : RenameHistory) :
    h.record e = (h.seen.contains t, ⟨h.seen.filter (· != t)⟩) := by
  unfold NativeEvent.combined? at he
  unfold record
  split at he <;> simp_all

theorem record_of_half (he : e.half? = some t) (h : RenameHistory) :
    h.record e = (false, h.remember t) := by
  unfold NativeEvent.half? at he
  unfold record
  split at he <;> simp_all

theorem record_of_neither (hhalf : e.half? = none) (hcombined : e.combined? = none)
    (h : RenameHistory) : h.record e = (false, h) := by
  unfold NativeEvent.half? at hhalf
  unfold NativeEvent.combined? at hcombined
  unfold record
  split at hhalf <;> split <;> simp_all

/-- The history after one event after the other. -/
def after (h : RenameHistory) : List NativeEvent → RenameHistory
  | [] => h
  | e :: es => (h.record e).2.after es

theorem after_append (h : RenameHistory) (es es' : List NativeEvent) :
    h.after (es ++ es') = (h.after es).after es' := by
  induction es generalizing h with
  | nil => rfl
  | cons e es ih => exact ih (h.record e).2

/-- The three ways in which an event changes the history. -/
theorem record_cases (h : RenameHistory) (e : NativeEvent) :
    (∃ u, e.combined? = some u ∧ e.half? = none ∧ (h.record e).2 = ⟨h.seen.filter (· != u)⟩)
      ∨ (∃ u, e.half? = some u ∧ e.combined? = none ∧ (h.record e).2 = h.remember u)
      ∨ (e.half? = none ∧ e.combined? = none ∧ (h.record e).2 = h) := by
  cases hcombined : e.combined? with
  | some u =>
    have hhalf := NativeEvent.half?_of_combined hcombined
    exact .inl ⟨u, rfl, hhalf, by rw [record_of_combined hcombined]⟩
  | none =>
    cases hhalf : e.half? with
    | some u => exact .inr (.inl ⟨u, rfl, rfl, by rw [record_of_half hhalf]⟩)
    | none => exact .inr (.inr ⟨rfl, rfl, by rw [record_of_neither hhalf hcombined]⟩)

/-! ### Room -/

/-- Whether a history holds no more trackers than it has room for, each once. -/
structure Bounded (h : RenameHistory) : Prop where
  length_le : h.seen.length ≤ limit
  nodup : h.seen.Nodup

theorem bounded_empty : empty.Bounded := ⟨Nat.zero_le _, List.nodup_nil⟩

theorem remember_of_mem (hu : u ∈ h.seen) : h.remember u = h := by
  rw [remember, if_pos (List.contains_iff_mem.mpr hu)]

/-- A new tracker comes last, and the oldest goes when there is no room for it. -/
theorem seen_remember (hroom : h.seen.length ≤ limit) (hu : u ∉ h.seen) :
    (h.remember u).seen = (h.seen ++ [u]).rtake limit := by
  have hcontains : ¬h.seen.contains u = true := fun hmem => hu (List.contains_iff_mem.mp hmem)
  rw [remember, if_neg hcontains, List.rtake, List.length_append, List.length_singleton]
  by_cases hfull : h.seen.length ≥ limit
  · have hne : h.seen ≠ [] := by
      rintro hnil
      rw [hnil] at hfull
      exact absurd hfull (by decide)
    rw [if_pos hfull, show h.seen.length + 1 - limit = 1 by omega, List.drop_one,
      List.tail_append_of_ne_nil hne]
  · rw [if_neg hfull, show h.seen.length + 1 - limit = 0 by omega, List.drop_zero]

theorem rtake_sublist (l : List Nat) (n : Nat) : (l.rtake n).Sublist l := List.drop_sublist _ l

theorem rtake_append_of_le {l l' : List Nat} {n : Nat} (hle : l'.length ≤ n) :
    (l ++ l').rtake n = l.rtake (n - l'.length) ++ l' := by
  have hdrop : l.length + l'.length - n = l.length - (n - l'.length) := by omega
  rw [List.rtake, List.length_append, hdrop, List.drop_append_of_le_length (Nat.sub_le _ _)]
  rfl

theorem Bounded.nodup_concat (hb : h.Bounded) (hu : u ∉ h.seen) : (h.seen ++ [u]).Nodup := by
  rw [← List.concat_eq_append]
  exact hb.nodup.concat hu

theorem Bounded.remember (hb : h.Bounded) (u : Nat) : (h.remember u).Bounded := by
  by_cases hu : u ∈ h.seen
  · rwa [remember_of_mem hu]
  · have hseen := seen_remember hb.length_le hu
    refine ⟨?_, hseen ▸ (hb.nodup_concat hu).sublist (rtake_sublist _ _)⟩
    rw [hseen, List.rtake, List.length_drop]
    omega

theorem Bounded.record (hb : h.Bounded) (e : NativeEvent) : (h.record e).2.Bounded := by
  rcases record_cases h e with ⟨u, -, -, heq⟩ | ⟨u, -, -, heq⟩ | ⟨-, -, heq⟩ <;> rw [heq]
  · exact ⟨(List.length_filter_le _ _).trans hb.length_le, hb.nodup.filter _⟩
  · exact hb.remember u
  · exact hb

theorem Bounded.after (hb : h.Bounded) (es : List NativeEvent) : (h.after es).Bounded := by
  induction es generalizing h with
  | nil => exact hb
  | cons e es ih => exact ih (hb.record e)

theorem rtake_rtake_append (l l' : List Nat) (n : Nat) :
    (l.rtake n ++ l').rtake n = (l ++ l').rtake n := by
  simp [List.rtake_eq_reverse_take_reverse, List.take_append, List.take_take]

/-! ### What gets in -/

theorem mem_of_mem_remember (ht : t ∈ (h.remember u).seen) : t = u ∨ t ∈ h.seen := by
  unfold remember at ht
  split at ht
  · exact .inr ht
  · split at ht
    · rcases List.mem_append.mp ht with hmem | hmem
      · exact .inr (List.mem_of_mem_tail hmem)
      · exact .inl (List.mem_singleton.mp hmem)
    · rcases List.mem_append.mp ht with hmem | hmem
      · exact .inr hmem
      · exact .inl (List.mem_singleton.mp hmem)

/-- What a history holds it has held before, or a half brought it in. -/
theorem mem_seen_after (ht : t ∈ (h.after es).seen) :
    t ∈ h.seen ∨ ∃ e ∈ es, e.half? = some t := by
  induction es generalizing h with
  | nil => exact .inl ht
  | cons e es ih =>
    rw [after] at ht
    rcases ih ht with hmem | ⟨e', he', hhalf⟩
    · rcases record_cases h e with ⟨u, -, -, heq⟩ | ⟨u, hhalf, -, heq⟩ | ⟨-, -, heq⟩ <;>
        rw [heq] at hmem
      · exact .inl (List.mem_filter.mp hmem).1
      · rcases mem_of_mem_remember hmem with rfl | hmem
        · exact .inr ⟨e, List.mem_cons_self .., hhalf⟩
        · exact .inl hmem
      · exact .inl hmem
    · exact .inr ⟨e', List.mem_cons_of_mem e he', hhalf⟩

theorem notMem_seen_of_combined (he : e.combined? = some t) : t ∉ (h.record e).2.seen := by
  rw [record_of_combined he]
  simp

/-- With its latest combined event a tracker is gone, and what comes after it decides. -/
theorem exists_before_sinceCombined (t : Nat) (past : List NativeEvent) :
    ∃ before, past = before ++ sinceCombined t past ∧ t ∉ (empty.after before).seen
      ∧ ∀ e ∈ sinceCombined t past, e.combined? ≠ some t := by
  refine ⟨past.rdropWhile fun e => e.combined? ≠ some t, ?_, ?_, ?_⟩
  · exact List.rdropWhile_append_rtakeWhile.symm
  · by_cases hnil : past.rdropWhile (fun e => e.combined? ≠ some t) = []
    · rw [hnil]
      exact List.not_mem_nil
    · have hlast := List.rdropWhile_last_not _ _ hnil
      rw [← List.dropLast_append_getLast hnil, after_append]
      exact notMem_seen_of_combined (by simpa using hlast)
  · intro e he
    simpa using List.mem_rtakeWhile_imp he

/-- A tracker is held only if a half brought it in after its latest combined event. -/
theorem exists_half_of_mem_seen {past : List NativeEvent} (ht : t ∈ (empty.after past).seen) :
    ∃ e ∈ sinceCombined t past, e.half? = some t := by
  obtain ⟨before, hpast, hbefore, -⟩ := exists_before_sinceCombined t past
  rw [hpast, after_append] at ht
  exact (mem_seen_after ht).resolve_left hbefore

/-! ### What stays -/

/-- What a new tracker displaces is older than one behind which there are few enough. -/
theorem exists_seen_remember (hb : h.Bounded) {older newer : List Nat}
    (hseen : h.seen = older ++ t :: newer) (hu : u ∉ h.seen)
    (hcard : (newer ++ [u]).toFinset.card < limit) :
    ∃ older', (h.remember u).seen = older' ++ t :: (newer ++ [u]) := by
  have hsub : (newer ++ [u]).Sublist (h.seen ++ [u]) := by
    rw [hseen]
    exact ((List.sublist_cons_self t newer).trans (List.sublist_append_right older _)).append_right
      [u]
  rw [List.toFinset_card_of_nodup ((hb.nodup_concat hu).sublist hsub)] at hcard
  refine ⟨older.rtake (limit - (t :: (newer ++ [u])).length), ?_⟩
  rw [seen_remember hb.length_le hu, hseen, List.append_assoc, List.cons_append]
  exact rtake_append_of_le hcard

/-- A tracker stays while fewer than `limit` others have come after it or are still to come. -/
theorem mem_seen_after_of_card_lt (hb : h.Bounded) {older newer : List Nat}
    (hseen : h.seen = older ++ t :: newer) (hes : ∀ e ∈ es, e.combined? ≠ some t)
    (hcard : (newer.toFinset ∪ otherTrackers t es).card < limit) : t ∈ (h.after es).seen := by
  induction es generalizing h older newer with
  | nil =>
    rw [after, hseen]
    simp
  | cons e es ih =>
    have hrest : ∀ e' ∈ es, e'.combined? ≠ some t := fun e' he' =>
      hes e' (List.mem_cons_of_mem e he')
    have hb' := hb.record e
    rw [after]
    rcases record_cases h e with ⟨u, hcombined, hhalf, heq⟩ | ⟨u, hhalf, -, heq⟩ |
      ⟨hhalf, -, heq⟩ <;> rw [heq] at hb' ⊢
    · -- another tracker goes, from either side
      have hne : t ≠ u := fun h => hes e (List.mem_cons_self ..) (h ▸ hcombined)
      have hsub : (newer.filter (· != u)).toFinset ⊆ newer.toFinset := fun x hx =>
        List.mem_toFinset.mpr (List.mem_filter.mp (List.mem_toFinset.mp hx)).1
      rw [otherTrackers_cons_of_none hhalf] at hcard
      have hseen' : h.seen.filter (· != u) =
          older.filter (· != u) ++ t :: newer.filter (· != u) := by
        rw [hseen, List.filter_append, List.filter_cons_of_pos (by simpa using hne)]
      exact ih hb' hseen' hrest
        ((Finset.card_le_card (Finset.union_subset_union_left hsub)).trans_lt hcard)
    · by_cases hu : u ∈ h.seen
      · rw [remember_of_mem hu]
        have hsub : newer.toFinset ∪ otherTrackers t es ⊆
            newer.toFinset ∪ otherTrackers t (e :: es) :=
          Finset.union_subset_union_right (otherTrackers_subset_cons t e es)
        exact ih hb hseen hrest ((Finset.card_le_card hsub).trans_lt hcard)
      · have hut : u ≠ t := by
          rintro rfl
          exact hu (by rw [hseen]; simp)
        have hunion : (newer ++ [u]).toFinset ∪ otherTrackers t es =
            newer.toFinset ∪ otherTrackers t (e :: es) := by
          rw [otherTrackers_cons_of_ne hhalf hut, List.toFinset_append, Finset.union_assoc,
            Finset.insert_eq]
          rfl
        rw [← hunion] at hcard
        obtain ⟨older', hseen'⟩ := exists_seen_remember hb hseen hu
          ((Finset.card_le_card Finset.subset_union_left).trans_lt hcard)
        exact ih hb' hseen' hrest hcard
    · rw [otherTrackers_cons_of_none hhalf] at hcard
      exact ih hb' hseen hrest hcard

/-- A tracker that a half brings in stays while fewer than `limit` others come after it. -/
theorem mem_seen_of_first_half (hb : h.Bounded) (ht : t ∉ h.seen) (he : e.half? = some t)
    (hes : ∀ e' ∈ es, e'.combined? ≠ some t) (hcard : (otherTrackers t es).card < limit) :
    t ∈ (h.after (e :: es)).seen := by
  have hb' := hb.record e
  have hseen := seen_remember hb.length_le ht
  rw [rtake_append_of_le (show 1 ≤ limit by decide)] at hseen
  rw [after]
  rw [record_of_half he] at hb' ⊢
  exact mem_seen_after_of_card_lt hb' hseen hes (by simpa using hcard)

/-- While the others since its first half are few enough, a tracker is held. -/
theorem mem_seen_of_card_lt {past : List NativeEvent}
    (hhalf : ∃ e ∈ sinceCombined t past, e.half? = some t)
    (hcard : (otherTrackers t (fromFirstHalf t (sinceCombined t past))).card < limit) :
    t ∈ (empty.after past).seen := by
  obtain ⟨before, hpast, hbefore, hsince⟩ := exists_before_sinceCombined t past
  obtain ⟨xs, e, ys, heq, hxs, he, hfrom⟩ := exists_first_half hhalf
  rw [hfrom, otherTrackers_cons_self he] at hcard
  rw [heq] at hsince
  have hnew : t ∉ ((empty.after before).after xs).seen := fun hmem => by
    rcases mem_seen_after hmem with hmem | ⟨e', he', hhalf'⟩
    · exact hbefore hmem
    · exact hxs e' he' hhalf'
  rw [hpast, heq, after_append, after_append]
  refine mem_seen_of_first_half ((bounded_empty.after before).after xs) hnew he ?_ hcard
  exact fun e' he' => hsince e' (List.mem_append_right xs (List.mem_cons_of_mem e he'))

/-! ### What goes -/

/-- Of new trackers, the latest are held and the oldest displaced. -/
theorem seen_after_halves (hb : h.Bounded) {us : List Nat}
    (hes : es.map NativeEvent.half? = us.map some) (hnodup : (h.seen ++ us).Nodup) :
    (h.after es).seen = (h.seen ++ us).rtake limit := by
  induction es generalizing h us with
  | nil =>
    obtain rfl := List.map_eq_nil_iff.mp hes.symm
    rw [after, List.append_nil, List.rtake, Nat.sub_eq_zero_of_le hb.length_le, List.drop_zero]
  | cons e es ih =>
    obtain ⟨u, us, rfl, he, hes⟩ := List.map_eq_cons_iff.mp hes.symm
    have hu : u ∉ h.seen := fun hmem =>
      (List.nodup_append.mp hnodup).2.2 u hmem u (List.mem_cons_self ..) rfl
    have hseen := seen_remember hb.length_le hu
    rw [List.append_cons] at hnodup
    have hnodup' : ((h.remember u).seen ++ us).Nodup := by
      rw [hseen]
      exact hnodup.sublist ((rtake_sublist _ limit).append_right us)
    rw [after, record_of_half he.symm, ih (hb.remember u) hes.symm hnodup', hseen,
      rtake_rtake_append, ← List.append_cons]

/-- A tracker that a half brings in is displaced when `limit` new ones come after it. -/
theorem notMem_seen_of_limit_halves (he : e.half? = some t) {us : List Nat}
    (hes : es.map NativeEvent.half? = us.map some) (hnodup : (t :: us).Nodup)
    (hlimit : limit ≤ us.length) : t ∉ (empty.after (e :: es)).seen := by
  have hall : (e :: es).map NativeEvent.half? = (t :: us).map some := by simp [he, hes]
  have hseen : (empty.after (e :: es)).seen = (t :: us).rtake limit :=
    seen_after_halves bounded_empty hall hnodup
  have hdrop : (t :: us).rtake limit = us.drop (us.length - limit) := by
    rw [List.rtake, List.length_cons, Nat.sub_add_comm hlimit, List.drop_succ_cons]
  rw [hseen, hdrop]
  exact fun hmem => (List.nodup_cons.mp hnodup).1 (List.mem_of_mem_drop hmem)

end RenameHistory

end FileWatch

import FileWatch.Proofs.Debouncer.Rulings

/-! # Paths — a debouncer treats each path as if it were the only one

What a debouncer remembers is right (`Recalls`), at any times. As long as the clock does not go
back, it is also all that matters (`RecallsOpen`): what pruning forgets has expired for good. This
holds of every way to tidy up that forgets nothing else (`Tidies`), also of the one that forgets
nothing. So no path has a part in the decisions on another one (`filter_rulings`).
-/

namespace FileWatch.Debouncer

/-! ### One offer -/

/-- Whether a modification of the path is refused at the time `now`. -/
def holdsBack (d : Debouncer) (key : List Component) (now : Nat) : Bool :=
  ((d.latestOf? key).map (d.isOpen now)).getD false

/-- The debouncer when an admission at the time `now` is about to be written down. -/
def pruned (d : Debouncer) (now : Nat) : Debouncer :=
  if d.latest.length ≥ pruneThreshold then d.prune now else d

/-- Decides like `offer`, but tidies up in a way of its own before an admission is written down. -/
def offerTidying (tidy : Debouncer → Nat → Debouncer) (d : Debouncer) (n : Notification)
    (now : Nat) : Bool × Debouncer :=
  let key := n.path.components
  if !d.isEnabled then (true, d)
  else if n.kind.isNameChange then (true, d.forget key)
  else if d.holdsBack key now then (false, d)
  else (true, (tidy d now).remember key now)

/-- Decides like `offer`, and never forgets a path because its window has passed. -/
def offerUnpruned : Debouncer → Notification → Nat → Bool × Debouncer :=
  offerTidying fun d _ => d

theorem offer_eq_offerTidying : offer = offerTidying pruned := rfl

/-- Whether tidying up forgets nothing but paths whose window has passed. -/
structure Tidies (tidy : Debouncer → Nat → Debouncer) : Prop where
  window (d : Debouncer) (now : Nat) : (tidy d now).window = d.window
  mem_of_mem {d : Debouncer} {now : Nat} {e : List Component × Nat} :
    e ∈ (tidy d now).latest → e ∈ d.latest
  mem_of_isOpen {d : Debouncer} {now : Nat} {e : List Component × Nat} :
    e ∈ d.latest → d.isOpen now e.2 = true → e ∈ (tidy d now).latest

theorem tidies_pruned : Tidies pruned where
  window d now := by
    unfold pruned
    split <;> rfl
  mem_of_mem := by
    intro d now e h
    unfold pruned at h
    split at h
    · exact (List.mem_filter.mp h).1
    · exact h
  mem_of_isOpen := by
    intro d now e h hopen
    unfold pruned
    split
    · exact List.mem_filter.mpr ⟨h, hopen⟩
    · exact h

theorem tidies_keep : Tidies fun d _ => d := ⟨fun _ _ => rfl, id, fun h _ => h⟩

variable {d : Debouncer} {o : Offer} {key : List Component} {time : Nat}

theorem mem_forget {e : List Component × Nat} :
    e ∈ (d.forget key).latest ↔ e ∈ d.latest ∧ e.1 ≠ key := by
  simp [forget]

theorem mem_remember {e : List Component × Nat} :
    e ∈ (d.remember key time).latest ↔ e = (key, time) ∨ (e ∈ d.latest ∧ e.1 ≠ key) := by
  rw [← mem_forget]
  exact List.mem_cons

theorem mem_of_latestOf? (h : d.latestOf? key = some time) : (key, time) ∈ d.latest := by
  obtain ⟨l₁, l₂, heq, -⟩ := List.lookup_eq_some_iff.mp h
  rw [heq]
  simp

theorem exists_latestOf?_of_mem (h : (key, time) ∈ d.latest) : ∃ t, d.latestOf? key = some t := by
  refine Option.isSome_iff_exists.mp (Option.isSome_iff_ne_none.mpr fun hnone => ?_)
  have hne := List.lookup_eq_none_iff.mp hnone (key, time) h
  simp at hne

theorem isOpen_iff {now : Nat} :
    d.isOpen now time = true ↔ now - time < d.window.nanoseconds := decide_eq_true_iff

theorem nanoseconds_pos {window : Duration} (hwindow : window ≠ Duration.zero) :
    0 < window.nanoseconds :=
  Nat.pos_of_ne_zero fun hzero => hwindow (congrArg Duration.mk hzero)

theorem holdsBack_iff {now : Nat} :
    d.holdsBack key now = true ↔
      ∃ t, d.latestOf? key = some t ∧ now - t < d.window.nanoseconds := by
  unfold holdsBack
  cases d.latestOf? key <;> simp [isOpen]

/-! ### What is remembered -/

section Tidying

variable {tidy : Debouncer → Nat → Debouncer} {window : Duration} {past : List Ruling}

/-- What becomes of an offer: a change of names lets the path go, and a modification is refused or
written down. -/
theorem ruling_cases (tidy : Debouncer → Nat → Debouncer) (hd : d.window ≠ Duration.zero)
    (o : Offer) :
    (o.notification.kind ≠ .modified ∧ ruling (offerTidying tidy) d o = ⟨o, true⟩
        ∧ next (offerTidying tidy) d o = d.forget o.key)
      ∨ (o.notification.kind = .modified ∧ d.holdsBack o.key o.time = true
        ∧ ruling (offerTidying tidy) d o = ⟨o, false⟩ ∧ next (offerTidying tidy) d o = d)
      ∨ (o.notification.kind = .modified ∧ d.holdsBack o.key o.time = false
        ∧ ruling (offerTidying tidy) d o = ⟨o, true⟩
        ∧ next (offerTidying tidy) d o = (tidy d o.time).remember o.key o.time) := by
  have henabled : d.isEnabled = true := by simpa [isEnabled] using hd
  unfold ruling next offerTidying
  by_cases hkind : o.notification.kind = .modified
  · cases hheld : d.holdsBack o.notification.path.components o.time with
    | true => simp [henabled, hkind, hheld, ChangeKind.isNameChange, Offer.key]
    | false => simp [henabled, hkind, hheld, ChangeKind.isNameChange, Offer.key]
  · simp [henabled, hkind, ChangeKind.isNameChange, Offer.key]

/-- Whether what a debouncer remembers is right. -/
def Recalls (d : Debouncer) (past : List Ruling) : Prop :=
  ∀ key time, (key, time) ∈ d.latest → lastModified? key past = some time

/-- Whether a debouncer remembers all that still holds modifications back at the time `now`. -/
def RecallsOpen (d : Debouncer) (past : List Ruling) (now : Nat) : Prop :=
  ∀ key time, lastModified? key past = some time → now - time < d.window.nanoseconds →
    (key, time) ∈ d.latest

theorem RecallsOpen.mono {now later : Nat} (h : RecallsOpen d past now) (hle : now ≤ later) :
    RecallsOpen d past later := by
  intro key time hlast hopen
  exact h key time hlast (by omega)

theorem Recalls.next (htidy : Tidies tidy) (hd : d.window ≠ Duration.zero) (h : Recalls d past)
    (o : Offer) :
    Recalls (next (offerTidying tidy) d o) (past ++ [ruling (offerTidying tidy) d o]) := by
  intro key time hmem
  rw [lastModified?_concat]
  rcases ruling_cases tidy hd o with ⟨hkind, hruling, hnext⟩ | ⟨hkind, -, hruling, hnext⟩ |
    ⟨hkind, -, hruling, hnext⟩ <;> rw [hnext] at hmem <;> rw [hruling]
  · obtain ⟨hmem, hne⟩ := mem_forget.mp hmem
    rw [Ruling.update_of_ne (Ne.symm hne)]
    exact h key time hmem
  · rw [Ruling.update_of_refused rfl hkind]
    exact h key time hmem
  · rcases mem_remember.mp hmem with heq | ⟨hmem, hne⟩
    · obtain ⟨rfl, rfl⟩ := Prod.mk.inj heq
      exact Ruling.update_of_admitted rfl (by simp [Ruling.admitsModification, hkind])
    · rw [Ruling.update_of_ne (Ne.symm hne)]
      exact h key time (htidy.mem_of_mem hmem)

/-- At the time of an offer, what is forgotten does not count any more. -/
theorem RecallsOpen.next (htidy : Tidies tidy) (hd : d.window ≠ Duration.zero) {o : Offer}
    (h : RecallsOpen d past o.time) :
    RecallsOpen (next (offerTidying tidy) d o) (past ++ [ruling (offerTidying tidy) d o])
      o.time := by
  intro key time hlast hopen
  rw [lastModified?_concat] at hlast
  rcases ruling_cases tidy hd o with ⟨hkind, hruling, hnext⟩ | ⟨hkind, -, hruling, hnext⟩ |
    ⟨hkind, -, hruling, hnext⟩ <;> rw [hruling] at hlast <;> rw [hnext] at hopen ⊢
  · by_cases hkey : o.key = key
    · rw [Ruling.update_of_nameChange hkey hkind] at hlast
      cases hlast
    · rw [Ruling.update_of_ne hkey] at hlast
      exact mem_forget.mpr ⟨h key time hlast hopen, Ne.symm hkey⟩
  · rw [Ruling.update_of_refused rfl hkind] at hlast
    exact h key time hlast hopen
  · have hopen : o.time - time < d.window.nanoseconds := by
      rwa [← htidy.window d o.time]
    by_cases hkey : o.key = key
    · rw [Ruling.update_of_admitted hkey (by simp [Ruling.admitsModification, hkind])] at hlast
      exact mem_remember.mpr (.inl (by rw [← hkey, ← Option.some.inj hlast]))
    · rw [Ruling.update_of_ne hkey] at hlast
      have hmem := htidy.mem_of_isOpen (h key time hlast hopen) (isOpen_iff.mpr hopen)
      exact mem_remember.mpr (.inr ⟨hmem, Ne.symm hkey⟩)

theorem window_next (htidy : Tidies tidy) (hd : d.window ≠ Duration.zero) (o : Offer) :
    (next (offerTidying tidy) d o).window = d.window := by
  rcases ruling_cases tidy hd o with ⟨-, -, hnext⟩ | ⟨-, -, -, hnext⟩ | ⟨-, -, -, hnext⟩ <;>
    rw [hnext]
  · rfl
  · exact htidy.window d o.time

theorem window_after (htidy : Tidies tidy) (hwindow : window ≠ Duration.zero) (os : List Offer) :
    (after (offerTidying tidy) (ofWindow window) os).window = window := by
  induction os using List.reverseRecOn with
  | nil => rfl
  | append_singleton os o ih =>
    rw [after_concat, window_next htidy (by rwa [ih]), ih]

/-- What a fresh debouncer has and each offer keeps is so after any offers. -/
theorem after_of_next {P : Debouncer → List Ruling → Prop} (htidy : Tidies tidy)
    (hwindow : window ≠ Duration.zero) (hfresh : P (ofWindow window) [])
    (hnext : ∀ {d past} (o : Offer), d.window ≠ Duration.zero → P d past →
      P (next (offerTidying tidy) d o) (past ++ [ruling (offerTidying tidy) d o]))
    (os : List Offer) :
    P (after (offerTidying tidy) (ofWindow window) os)
      (rulings (offerTidying tidy) (ofWindow window) os) := by
  induction os using List.reverseRecOn with
  | nil => exact hfresh
  | append_singleton os o ih =>
    have hd := window_after htidy hwindow os
    rw [after_concat, rulings_concat]
    exact hnext o (by rwa [hd]) ih

theorem recalls_after (htidy : Tidies tidy) (hwindow : window ≠ Duration.zero) (os : List Offer) :
    Recalls (after (offerTidying tidy) (ofWindow window) os)
      (rulings (offerTidying tidy) (ofWindow window) os) :=
  after_of_next htidy hwindow (fun _ _ h => nomatch h) (fun o hd h => h.next htidy hd o) os

/-- Whether the clock does not go back between the offers. -/
def InOrder (os : List Offer) : Prop := os.Pairwise fun o o' => o.time ≤ o'.time

theorem recallsOpen_after (htidy : Tidies tidy) (hwindow : window ≠ Duration.zero) {os : List Offer}
    (hos : InOrder os) {now : Nat} (hnow : ∀ o ∈ os, o.time ≤ now) :
    RecallsOpen (after (offerTidying tidy) (ofWindow window) os)
      (rulings (offerTidying tidy) (ofWindow window) os) now := by
  induction os using List.reverseRecOn generalizing now with
  | nil => exact fun _ _ h => nomatch h
  | append_singleton os o ih =>
    obtain ⟨hos, -, hlast⟩ := List.pairwise_append.mp hos
    have hd := window_after htidy hwindow os
    have hopen := ih hos fun o' ho' => hlast o' ho' o (by simp)
    rw [after_concat, rulings_concat]
    exact (hopen.next htidy (by rwa [hd])).mono (hnow o (by simp))

/-! ### What is decided -/

theorem refused_iff_holdsBack (hd : d.window ≠ Duration.zero) (o : Offer) :
    (ruling (offerTidying tidy) d o).admitted = false ↔
      o.notification.kind = .modified ∧ d.holdsBack o.key o.time = true := by
  rcases ruling_cases tidy hd o with ⟨hkind, hruling, -⟩ | ⟨hkind, hheld, hruling, -⟩ |
    ⟨hkind, hheld, hruling, -⟩ <;> simp [*]

/-- At any times, a modification is refused only within the window of the latest admitted one. -/
theorem of_refused (htidy : Tidies tidy) (hwindow : window ≠ Duration.zero) {os : List Offer}
    {o : Offer}
    (h : (ruling (offerTidying tidy) (after (offerTidying tidy) (ofWindow window) os) o).admitted
      = false) :
    o.notification.kind = .modified
      ∧ ∃ t, lastModified? o.key (rulings (offerTidying tidy) (ofWindow window) os) = some t
        ∧ o.time - t < window.nanoseconds := by
  have hd := window_after htidy hwindow os
  obtain ⟨hkind, hheld⟩ := (refused_iff_holdsBack (by rwa [hd]) o).mp h
  obtain ⟨t, hlatest, hopen⟩ := holdsBack_iff.mp hheld
  rw [hd] at hopen
  exact ⟨hkind, t, recalls_after htidy hwindow os o.key t (mem_of_latestOf? hlatest), hopen⟩

/-- While the clock does not go back, every modification within this window is refused. -/
theorem refused_iff (htidy : Tidies tidy) (hwindow : window ≠ Duration.zero) {os : List Offer}
    {o : Offer} (hos : InOrder (os ++ [o])) :
    (ruling (offerTidying tidy) (after (offerTidying tidy) (ofWindow window) os) o).admitted = false
      ↔ o.notification.kind = .modified
        ∧ ∃ t, lastModified? o.key (rulings (offerTidying tidy) (ofWindow window) os) = some t
          ∧ o.time - t < window.nanoseconds := by
  refine ⟨of_refused htidy hwindow, fun ⟨hkind, t, hlast, hopen⟩ => ?_⟩
  obtain ⟨hos, -, hle⟩ := List.pairwise_append.mp hos
  have hd := window_after htidy hwindow os
  rw [refused_iff_holdsBack (by rwa [hd]), holdsBack_iff, hd]
  have hmem := recallsOpen_after htidy hwindow hos (fun o' ho' => hle o' ho' o (by simp)) o.key t
    hlast (by rwa [hd])
  -- the entry that is found is the right one, as all that is remembered is right
  obtain ⟨t', hlatest⟩ := exists_latestOf?_of_mem hmem
  have hright := recalls_after htidy hwindow os o.key t' (mem_of_latestOf? hlatest)
  obtain rfl : t = t' := Option.some.inj (hlast.symm.trans hright)
  exact ⟨hkind, t, hlatest, hopen⟩

/-- While the clock does not go back, the rulings on a path are those on its offers alone, however
the two debouncers tidy up. -/
theorem filter_rulings {tidy' : Debouncer → Nat → Debouncer} (htidy : Tidies tidy)
    (htidy' : Tidies tidy') (hwindow : window ≠ Duration.zero) {os : List Offer} (hos : InOrder os)
    (key : List Component) :
    (rulings (offerTidying tidy) (ofWindow window) os).filter (fun r => r.key == key) =
      rulings (offerTidying tidy') (ofWindow window) (os.filter fun o => o.key == key) := by
  induction os using List.reverseRecOn with
  | nil => rfl
  | append_singleton os o ih =>
    have hearlier := ih (List.pairwise_append.mp hos).1
    rw [rulings_concat, List.filter_append, List.filter_append]
    by_cases hkey : o.key = key
    · subst hkey
      have halone : InOrder (os.filter (fun o' => o'.key == o.key) ++ [o]) :=
        hos.sublist (List.filter_sublist.append (List.Sublist.refl [o]))
      have hrefused := refused_iff htidy hwindow hos
      have hrefused' := refused_iff htidy' hwindow halone
      rw [← hearlier, lastModified?_filter] at hrefused'
      have hadmitted :
          (ruling (offerTidying tidy) (after (offerTidying tidy) (ofWindow window) os) o).admitted =
            (ruling (offerTidying tidy') (after (offerTidying tidy') (ofWindow window)
              (os.filter fun o' => o'.key == o.key)) o).admitted := by
        rw [Bool.eq_iff_iff, ← not_iff_not, Bool.not_eq_true, Bool.not_eq_true]
        exact hrefused.trans hrefused'.symm
      have hkept : [o].filter (fun o' => o'.key == o.key) = [o] := by simp
      have hruling : ∀ d : Debouncer, [ruling (offerTidying tidy) d o].filter
          (fun r => r.key == o.key) = [ruling (offerTidying tidy) d o] := by simp [ruling]
      rw [hkept, hruling, rulings_concat, hearlier]
      exact congrArg (fun b => _ ++ [Ruling.mk o b]) hadmitted
    · have hne : (o.key == key) = false := beq_eq_false_iff_ne.mpr hkey
      simp [hne, ruling, hearlier]

/-- While the clock does not go back, two admitted modifications of a path that keeps its names are
a window apart. -/
theorem spaced_of_inOrder (htidy : Tidies tidy) (hwindow : window ≠ Duration.zero) {os : List Offer}
    (hos : InOrder os) {past between rest : List Ruling} {r r' : Ruling}
    (hsplit : rulings (offerTidying tidy) (ofWindow window) os =
      (past ++ r :: between) ++ r' :: rest)
    (hkey : r'.key = r.key) (hr : r.admitsModification = true)
    (hr' : r'.admitsModification = true)
    (hbetween : ∀ b ∈ between, b.key = r.key → b.notification.kind = .modified) :
    r.time + window.nanoseconds ≤ r'.time := by
  obtain ⟨before, o, later, rfl, hpast, rfl⟩ := rulings_eq_append_cons _ _ hsplit
  obtain ⟨latest, hlatest, hlast⟩ := lastModified?_of_admitted past hr hbetween
  have hbefore : InOrder (before ++ [o]) := by
    refine hos.sublist ?_
    exact (List.Sublist.refl before).append ((List.nil_sublist later).cons_cons o)
  -- the latest admitted modification is not older than the first of the two
  have hle : r.time ≤ latest.time := by
    have hmap : (past ++ r :: between).map Ruling.toOffer = before := by
      rw [hpast, map_toOffer_rulings]
    have htail : InOrder ((r :: between).map Ruling.toOffer) := by
      refine (List.pairwise_append.mp hbefore).1.sublist ?_
      rw [← hmap, List.map_append]
      exact List.sublist_append_right _ _
    rcases List.mem_cons.mp hlatest with rfl | hmem
    · exact Nat.le_refl _
    · exact List.rel_of_pairwise_cons htail (List.mem_map_of_mem hmem)
  have hadmitted := (Bool.and_eq_true_iff.mp hr').2
  have hkind := eq_of_beq (Bool.and_eq_true_iff.mp hr').1
  have hopen := mt (refused_iff htidy hwindow hbefore).mpr (by simp [hadmitted])
  rw [← hpast] at hopen
  have hwide : window.nanoseconds ≤ o.time - latest.time := by
    by_contra hlt
    refine hopen ⟨hkind, latest.time, ?_, Nat.not_le.mp hlt⟩
    rw [← hlast]
    exact congrArg (lastModified? · _) hkey
  have hpositive := nanoseconds_pos hwindow
  show r.time + window.nanoseconds ≤ o.time
  omega

end Tidying

/-- **The paths are debounced apart.** Every offer gets one ruling. At any times, changes of names
are admitted, and a modification is refused only within the window of the latest admitted one of its
path. While the clock does not go back, it is refused exactly then. So the rulings on a path are
those of a debouncer that gets the offers for this path alone and never prunes, and between changes
of its names its admitted modifications are a window apart. -/
theorem paths_debounced_apart {window : Duration} (hwindow : window ≠ Duration.zero)
    (offers : List Offer) :
    let rs := rulings offer (ofWindow window) offers
    rs.map Ruling.toOffer = offers
      ∧ (∀ past r rest, rs = past ++ r :: rest →
          (r.notification.kind ≠ .modified → r.admitted = true)
            ∧ (r.notification.kind = .modified → r.admitted = false →
                ∃ t, lastModified? r.key past = some t ∧ r.time - t < window.nanoseconds))
      ∧ (InOrder offers →
          (∀ past r rest, rs = past ++ r :: rest → r.notification.kind = .modified →
            (r.admitted = false ↔
              ∃ t, lastModified? r.key past = some t ∧ r.time - t < window.nanoseconds))
          ∧ (∀ key, rs.filter (fun r => r.key == key) =
              rulings offerUnpruned (ofWindow window) (offers.filter fun o => o.key == key))
          ∧ (∀ past r between r' rest, rs = (past ++ r :: between) ++ r' :: rest →
              r'.key = r.key → r.admitsModification = true → r'.admitsModification = true →
              (∀ b ∈ between, b.key = r.key → b.notification.kind = .modified) →
              r.time + window.nanoseconds ≤ r'.time)) := by
  rw [offer_eq_offerTidying]
  intro rs
  refine ⟨map_toOffer_rulings _ _ offers, fun past r rest hsplit => ?_, fun horder =>
    ⟨fun past r rest hsplit hkind => ?_, fun key => ?_, ?_⟩⟩
  · obtain ⟨before, o, later, -, rfl, rfl⟩ := rulings_eq_append_cons _ _ hsplit
    refine ⟨fun hkind => ?_, fun _ hrefused => (of_refused tidies_pruned hwindow hrefused).2⟩
    by_contra hrefused
    exact hkind (of_refused tidies_pruned hwindow (Bool.eq_false_iff.mpr hrefused)).1
  · obtain ⟨before, o, later, rfl, rfl, rfl⟩ := rulings_eq_append_cons _ _ hsplit
    have hbefore : InOrder (before ++ [o]) :=
      horder.sublist ((List.Sublist.refl before).append ((List.nil_sublist later).cons_cons o))
    exact (refused_iff tidies_pruned hwindow hbefore).trans (and_iff_right hkind)
  · exact filter_rulings tidies_pruned tidies_keep hwindow horder key
  · intro past r between r' rest hsplit hkey hr hr' hbetween
    exact spaced_of_inOrder tidies_pruned hwindow horder hsplit hkey hr hr' hbetween

/-- The two spellings of one path are debounced together, the other path apart from them, and a
removal opens the window again. -/
theorem paths_debounced_apart_of_two :
    let a : Path := ⟨[0x2F, 0x61]⟩
    let a' : Path := ⟨[0x2F, 0x2F, 0x61]⟩
    let b : Path := ⟨[0x2F, 0x62]⟩
    let offers : List Offer :=
      [⟨⟨.modified, a⟩, 0⟩, ⟨⟨.modified, a'⟩, 50⟩, ⟨⟨.modified, b⟩, 50⟩, ⟨⟨.removed, a⟩, 60⟩,
        ⟨⟨.modified, a⟩, 70⟩, ⟨⟨.modified, a'⟩, 169⟩, ⟨⟨.modified, a'⟩, 170⟩]
    let d := ofWindow ⟨100⟩
    (⟨100⟩ : Duration) ≠ Duration.zero ∧ InOrder offers
      ∧ (rulings offer d offers).map Ruling.admitted =
          [true, false, true, true, true, false, true]
      ∧ (rulings offer d offers).filter (fun r => r.key == a.components) =
          rulings offerUnpruned d (offers.filter fun o => o.key == a.components) := by
  intro a a' b offers d
  have hwindow : (⟨100⟩ : Duration) ≠ Duration.zero := by decide
  have horder : InOrder offers := by
    unfold InOrder
    decide
  obtain ⟨-, -, happart⟩ := paths_debounced_apart hwindow offers
  exact ⟨hwindow, horder, by decide, (happart horder).2.1 a.components⟩

end FileWatch.Debouncer

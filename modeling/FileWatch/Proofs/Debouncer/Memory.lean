import FileWatch.Proofs.Debouncer.Paths
import FileWatch.Proofs.Path.Components

/-! # Memory — what a debouncer remembers is bounded by what is live

An entry is an admitted modification that stands through all later rulings, and a path has one entry
at most. Past the threshold every entry was within its window when the latest modification was
admitted (`FewOrOpen`): an admission forgets what has expired before it adds its own entry, and all
else only takes entries away. Entries go no sooner than that: what stands and is forgotten had
expired when a later modification was admitted (`ForgetsExpired`). All of this holds at any times.

The threshold alone is no bound. Of new paths that are modified within one window none is forgotten,
however many they are (`latest_after_of_fresh`).
-/

namespace FileWatch

/-- The ruling on the latest modification that was admitted, of whichever path. -/
def latestAdmission? (rulings : List Ruling) : Option Ruling :=
  (rulings.filter Ruling.admitsModification).getLast?

theorem latestAdmission?_of_admits {r : Ruling} (h : r.admitsModification = true)
    (rulings : List Ruling) : latestAdmission? (rulings ++ [r]) = some r := by
  simp [latestAdmission?, h]

theorem latestAdmission?_of_not_admits {r : Ruling} (h : r.admitsModification = false)
    (rulings : List Ruling) : latestAdmission? (rulings ++ [r]) = latestAdmission? rulings := by
  simp [latestAdmission?, h]

namespace Debouncer

variable {d d' : Debouncer} {o : Offer} {key : List Component} {now : Nat} {past : List Ruling}
  {r : Ruling} {window : Duration}

/-! ### What an operation does to the entries -/

theorem latest_forget_sublist : (d.forget key).latest.Sublist d.latest := List.filter_sublist

theorem latest_pruned_sublist : (d.pruned now).latest.Sublist d.latest := by
  unfold pruned
  split
  · exact List.filter_sublist
  · exact List.Sublist.refl _

theorem latest_pruned_of_isOpen (h : ∀ e ∈ d.latest, d.isOpen now e.2 = true) :
    (d.pruned now).latest = d.latest := by
  unfold pruned
  split
  · exact List.filter_eq_self.mpr h
  · rfl

/-- When an admission is written down, there is room below the threshold or nothing is expired. -/
theorem room_or_isOpen_of_pruned :
    (d.pruned now).latest.length < pruneThreshold
      ∨ ∀ e ∈ (d.pruned now).latest, d.isOpen now e.2 = true := by
  unfold pruned
  split
  · exact .inr fun e he => (List.mem_filter.mp he).2
  · exact .inl (by omega)

/-! ### One entry for a path -/

theorem nodup_remember (h : (d.latest.map Prod.fst).Nodup) :
    ((d.remember key now).latest.map Prod.fst).Nodup := by
  refine List.nodup_cons.mpr ⟨fun hmem => ?_, (latest_forget_sublist.map Prod.fst).nodup h⟩
  obtain ⟨e, he, hkey⟩ := List.mem_map.mp hmem
  exact (mem_forget.mp he).2 hkey

theorem nodup_next (hd : d.window ≠ Duration.zero) (h : (d.latest.map Prod.fst).Nodup)
    (o : Offer) : ((next (offerTidying pruned) d o).latest.map Prod.fst).Nodup := by
  rcases ruling_cases pruned hd o with ⟨-, -, hnext⟩ | ⟨-, -, -, hnext⟩ | ⟨-, -, -, hnext⟩ <;>
    rw [hnext]
  · exact (latest_forget_sublist.map Prod.fst).nodup h
  · exact h
  · exact nodup_remember ((latest_pruned_sublist.map Prod.fst).nodup h)

/-! ### Few entries, or open ones -/

/-- Whether the entries are no more than the threshold, or all were within their window when the
latest modification was admitted. -/
def FewOrOpen (d : Debouncer) (past : List Ruling) : Prop :=
  d.latest.length ≤ pruneThreshold
    ∨ ∃ r, latestAdmission? past = some r ∧ ∀ e ∈ d.latest, r.time - e.2 < d.window.nanoseconds

/-- A ruling that admits no modification leaves no more entries than there were. -/
theorem FewOrOpen.of_sublist (h : FewOrOpen d past) (hsub : d'.latest.Sublist d.latest)
    (hd' : d'.window = d.window) (hr : r.admitsModification = false) :
    FewOrOpen d' (past ++ [r]) := by
  rcases h with hfew | ⟨latest, hlatest, hopen⟩
  · exact .inl (Nat.le_trans hsub.length_le hfew)
  · refine .inr ⟨latest, (latestAdmission?_of_not_admits hr past).trans hlatest, fun e he => ?_⟩
    rw [hd']
    exact hopen e (hsub.subset he)

/-- An admission either finds room or leaves only open entries beside its own. -/
theorem fewOrOpen_remember (hd : d.window ≠ Duration.zero) (hr : r.admitsModification = true)
    (past : List Ruling) : FewOrOpen ((d.pruned r.time).remember r.key r.time) (past ++ [r]) := by
  have hroom : (d.pruned r.time).latest.length < pruneThreshold
      ∨ ∀ e ∈ (d.pruned r.time).latest, d.isOpen r.time e.2 = true := room_or_isOpen_of_pruned
  rcases hroom with hroom | hopen
  · have hle : ((d.pruned r.time).forget r.key).latest.length ≤ (d.pruned r.time).latest.length :=
      latest_forget_sublist.length_le
    exact .inl (Nat.succ_le_of_lt (Nat.lt_of_le_of_lt hle hroom))
  · refine .inr ⟨r, latestAdmission?_of_admits hr past, fun e he => ?_⟩
    show r.time - e.2 < (d.pruned r.time).window.nanoseconds
    rw [tidies_pruned.window]
    rcases mem_remember.mp he with rfl | ⟨hmem, -⟩
    · -- the entry of the admission itself has no age
      rw [Nat.sub_self]
      exact nanoseconds_pos hd
    · exact isOpen_iff.mp (hopen e hmem)

theorem FewOrOpen.next (hd : d.window ≠ Duration.zero) (h : FewOrOpen d past) (o : Offer) :
    FewOrOpen (next (offerTidying pruned) d o) (past ++ [ruling (offerTidying pruned) d o]) := by
  rcases ruling_cases pruned hd o with ⟨hkind, hruling, hnext⟩ | ⟨-, -, hruling, hnext⟩ |
    ⟨hkind, -, hruling, hnext⟩ <;> rw [hruling, hnext]
  · exact h.of_sublist latest_forget_sublist rfl (by simp [Ruling.admitsModification, hkind])
  · exact h.of_sublist (List.Sublist.refl _) rfl (by simp [Ruling.admitsModification])
  · exact fewOrOpen_remember (r := ⟨o, true⟩) hd (by simp [Ruling.admitsModification, hkind]) past

/-! ### What is forgotten -/

/-- Whether each admitted modification that stands is remembered, unless it had expired when a later
one was admitted. -/
def ForgetsExpired (d : Debouncer) (past : List Ruling) : Prop :=
  ∀ before r later, past = before ++ r :: later → r.StandsThrough later →
    (r.key, r.time) ∈ d.latest
      ∨ ∃ b ∈ later, b.admitsModification = true ∧ d.window.nanoseconds ≤ b.time - r.time

theorem mem_next_of_admits (hd : d.window ≠ Duration.zero)
    (h : (ruling (offerTidying pruned) d o).admitsModification = true) :
    (o.key, o.time) ∈ (next (offerTidying pruned) d o).latest := by
  rcases ruling_cases pruned hd o with ⟨hkind, hruling, -⟩ | ⟨-, -, hruling, -⟩ | ⟨-, -, -, hnext⟩
  · simp [hruling, Ruling.admitsModification, hkind] at h
  · simp [hruling, Ruling.admitsModification] at h
  · rw [hnext]
    exact mem_remember.mpr (.inl rfl)

/-- An entry that an offer lets stand stays, unless it has expired when the modification of another
path is admitted. -/
theorem mem_next_or_expired (hd : d.window ≠ Duration.zero) {time : Nat}
    (hmem : (key, time) ∈ d.latest)
    (hstill : o.key = key → o.notification.kind = .modified
      ∧ (ruling (offerTidying pruned) d o).admitted = false) :
    (key, time) ∈ (next (offerTidying pruned) d o).latest
      ∨ ((ruling (offerTidying pruned) d o).admitsModification = true
        ∧ d.window.nanoseconds ≤ o.time - time) := by
  rcases ruling_cases pruned hd o with ⟨hkind, -, hnext⟩ | ⟨-, -, -, hnext⟩ |
    ⟨hkind, -, hruling, hnext⟩ <;> rw [hnext]
  · exact .inl (mem_forget.mpr ⟨hmem, fun hkey => hkind (hstill hkey.symm).1⟩)
  · exact .inl hmem
  · by_cases hopen : d.isOpen o.time time = true
    · refine .inl (mem_remember.mpr (.inr ⟨tidies_pruned.mem_of_isOpen hmem hopen, ?_⟩))
      intro hkey
      have hrefused := (hstill hkey.symm).2
      simp [hruling] at hrefused
    · refine .inr ⟨by simp [hruling, Ruling.admitsModification, hkind], ?_⟩
      exact Nat.not_lt.mp fun hlt => hopen (isOpen_iff.mpr hlt)

theorem ForgetsExpired.next (hd : d.window ≠ Duration.zero) (h : ForgetsExpired d past)
    (o : Offer) :
    ForgetsExpired (next (offerTidying pruned) d o)
      (past ++ [ruling (offerTidying pruned) d o]) := by
  intro before r later hsplit hstands
  rw [window_next tidies_pruned hd]
  rcases List.eq_nil_or_concat' later with rfl | ⟨later, b, rfl⟩
  · obtain ⟨-, hlast⟩ := List.append_inj' hsplit rfl
    obtain rfl := (List.cons.inj hlast).1
    exact .inl (mem_next_of_admits hd (Ruling.standsThrough_nil.mp hstands))
  · rw [← List.cons_append, ← List.append_assoc] at hsplit
    obtain ⟨rfl, hlast⟩ := List.append_inj' hsplit rfl
    obtain rfl := (List.cons.inj hlast).1
    obtain ⟨hstands, hstill⟩ := Ruling.standsThrough_concat.mp hstands
    -- what was missing before the offer is still explained by the same admission
    rcases h before r later rfl hstands with hmem | ⟨b, hb, hexpired⟩
    · refine (mem_next_or_expired hd hmem hstill).imp_right fun hexpired => ?_
      exact ⟨ruling _ d o, List.mem_append_right _ (List.mem_singleton_self _), hexpired⟩
    · exact .inr ⟨b, List.mem_append_left _ hb, hexpired⟩

/-! ### More entries than the threshold -/

/-- A modification of a new path is added to entries that are all open. -/
theorem latest_next_of_fresh (hd : d.window ≠ Duration.zero)
    (hkind : o.notification.kind = .modified)
    (hfresh : ∀ e ∈ d.latest, e.1 ≠ o.key ∧ d.isOpen o.time e.2 = true) :
    (next (offerTidying pruned) d o).latest = (o.key, o.time) :: d.latest := by
  rcases ruling_cases pruned hd o with ⟨hchange, -, -⟩ | ⟨-, hheld, -, -⟩ | ⟨-, -, -, hnext⟩
  · exact absurd hkind hchange
  · obtain ⟨t, hlatest, -⟩ := holdsBack_iff.mp hheld
    exact absurd rfl (hfresh _ (mem_of_latestOf? hlatest)).1
  · rw [hnext, remember, forget, latest_pruned_of_isOpen fun e he => (hfresh e he).2]
    refine congrArg ((o.key, o.time) :: ·) (List.filter_eq_self.mpr fun e he => ?_)
    exact bne_iff_ne.mpr (hfresh e he).1

/-- Of new paths that are modified within one window none is forgotten, however many they are. -/
theorem latest_after_of_fresh (hwindow : window ≠ Duration.zero) {os : List Offer}
    (hkind : ∀ o ∈ os, o.notification.kind = .modified)
    (hfresh : os.Pairwise fun o o' => o.key ≠ o'.key ∧ o'.time - o.time < window.nanoseconds) :
    (after offer (ofWindow window) os).latest = (os.map fun o => (o.key, o.time)).reverse := by
  rw [offer_eq_offerTidying]
  induction os using List.reverseRecOn with
  | nil => rfl
  | append_singleton os o ih =>
    have hd := window_after tidies_pruned hwindow os
    obtain ⟨hearlier, -, hlast⟩ := List.pairwise_append.mp hfresh
    have hos := ih (fun o' ho' => hkind o' (List.mem_append_left [o] ho')) hearlier
    rw [after_concat, latest_next_of_fresh (by rwa [hd]) (hkind o (by simp)), hos]
    · simp
    · intro e he
      rw [hos, List.mem_reverse] at he
      obtain ⟨o', ho', rfl⟩ := List.mem_map.mp he
      obtain ⟨hkey, hopen⟩ := hlast o' ho' o (by simp)
      exact ⟨hkey, isOpen_iff.mpr (by rwa [hd])⟩

/-! ### After any offers -/

/-- **The memory of a debouncer is bounded by what is live.** Whatever was offered at whatever
times, a path has at most one entry, and an entry is an admitted modification of a path that has
kept its names since. There are at most 1024 entries, or each was within its window when the latest
modification was admitted. Nor is more forgotten than that: an admitted modification that stands
without an entry had expired when a later modification was admitted. -/
theorem memory_bounded_by_live {window : Duration} (hwindow : window ≠ Duration.zero)
    (offers : List Offer) :
    let rs := rulings offer (ofWindow window) offers
    let d := after offer (ofWindow window) offers
    (d.latest.map Prod.fst).Nodup
      ∧ (∀ key time, (key, time) ∈ d.latest →
          ∃ past r later, rs = past ++ r :: later ∧ r.StandsThrough later ∧ r.key = key
            ∧ r.time = time)
      ∧ (d.latest.length ≤ 1024
          ∨ ∃ r, latestAdmission? rs = some r
            ∧ ∀ e ∈ d.latest, r.time - e.2 < window.nanoseconds)
      ∧ (∀ past r later, rs = past ++ r :: later → r.StandsThrough later →
          (r.key, r.time) ∈ d.latest
            ∨ ∃ b ∈ later, b.admitsModification = true
              ∧ window.nanoseconds ≤ b.time - r.time) := by
  rw [offer_eq_offerTidying]
  intro rs d
  have hd : d.window = window := window_after tidies_pruned hwindow offers
  have hnodup : (d.latest.map Prod.fst).Nodup :=
    after_of_next (P := fun d _ => (d.latest.map Prod.fst).Nodup) tidies_pruned hwindow
      List.nodup_nil (fun o hd h => nodup_next hd h o) offers
  have hfew : FewOrOpen d rs :=
    after_of_next (P := FewOrOpen) tidies_pruned hwindow (.inl (Nat.zero_le _))
      (fun o hd h => h.next hd o) offers
  have hforgets : ForgetsExpired d rs :=
    after_of_next (P := ForgetsExpired) tidies_pruned hwindow
      (fun _ _ _ h => nomatch List.append_eq_nil_iff.mp h.symm) (fun o hd h => h.next hd o) offers
  refine ⟨hnodup, fun key time hmem => ?_, ?_, fun past r later hsplit hstands => ?_⟩
  · exact exists_of_lastModified? (recalls_after tidies_pruned hwindow offers key time hmem)
  · rwa [FewOrOpen, hd] at hfew
  · rw [← hd]
    exact hforgets past r later hsplit hstands

/-- More paths than the threshold are modified while the clock goes back from one to the next: all
of them stay within their window and are remembered. -/
theorem memory_bounded_by_live_beyond_threshold :
    let window : Duration := ⟨100⟩
    let path (n : Nat) : Path := ⟨Path.slash :: List.replicate (n + 1) 0x61⟩
    let offers := (List.range 1025).map fun n => Offer.mk ⟨.modified, path n⟩ (5000 - n)
    window ≠ Duration.zero ∧ (after offer (ofWindow window) offers).latest.length = 1025
      ∧ ∃ r, latestAdmission? (rulings offer (ofWindow window) offers) = some r
        ∧ ∀ e ∈ (after offer (ofWindow window) offers).latest,
          r.time - e.2 < window.nanoseconds := by
  intro window path offers
  have hwindow : window ≠ Duration.zero := by decide
  have hpath : ∀ n, (path n).components = [.root, .name (List.replicate (n + 1) 0x61)] := by
    intro n
    have hplain : IsPlainName (List.replicate (n + 1) 0x61) :=
      isPlainName_iff.mpr ⟨by simp, by simp [Path.slash], by simp [Path.dot, List.replicate_succ]⟩
    rw [Path.components_slash, Path.namesIn_of_plain hplain]
  have hfresh : offers.Pairwise fun o o' =>
      o.key ≠ o'.key ∧ o'.time - o.time < window.nanoseconds := by
    refine List.pairwise_map.mpr (List.pairwise_lt_range.imp fun {n m} hlt => ⟨fun hkey => ?_, ?_⟩)
    · have hsame := (hpath n).symm.trans (hkey.trans (hpath m))
      have hname := Component.name.inj (List.cons.inj (List.cons.inj hsame).2).1
      have hlength := congrArg List.length hname
      rw [List.length_replicate, List.length_replicate] at hlength
      omega
    · show 5000 - m - (5000 - n) < 100
      omega
  have hlength : (after offer (ofWindow window) offers).latest.length = 1025 := by
    rw [latest_after_of_fresh hwindow (by simp [offers]) hfresh, List.length_reverse,
      List.length_map, List.length_map, List.length_range]
  obtain ⟨-, -, hbounded, -⟩ := memory_bounded_by_live hwindow offers
  refine ⟨hwindow, hlength, hbounded.resolve_left ?_⟩
  rw [hlength]
  decide

end Debouncer

end FileWatch

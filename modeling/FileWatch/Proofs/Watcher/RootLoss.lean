import FileWatch.Proofs.Reporting.Relevance
import FileWatch.Proofs.Watcher.Delivery
import FileWatch.Proofs.Watcher.Staleness

/-! # RootLoss — no filter hides that the root is lost

An event is classified twice: `invalidatesRoot` asks whether it tells of the loss of the root, and
`notificationsOf` what to report of it. The first answer is taken before any filter is asked, so the
rearm is pending after an event exactly if it was before or the root is lost
(`rearm_pending_of_root_loss`). The two classifications agree: only a removal or a rename is
reported by a kind of change after which a name is gone (`removesOrRenames_of_mem_notificationsOf`),
so such a report about the root never stands beside a settled rearm.
-/

namespace FileWatch

/-- The kinds of change that a way of reporting makes use of. -/
def Reporting.kinds : Reporting → List ChangeKind
  | each kind => [kind]
  | renamePair => [.renamedFrom, .renamedTo]

theorem Path.same_iff {p q : Path} : p.same q = true ↔ p.components = q.components := beq_iff_eq

/-! ### The two classifications -/

theorem EventKind.removesOrRenames_iff {k : EventKind} : k.removesOrRenames = true ↔
    (∃ entry, k = .remove entry) ∨ ∃ side, k = .modify (.name side) := by
  constructor
  · intro h
    unfold removesOrRenames at h
    split at h
    · exact .inl ⟨_, rfl⟩
    · exact .inr ⟨_, rfl⟩
    · cases h
  · rintro (⟨entry, rfl⟩ | ⟨side, rfl⟩) <;> rfl

/-- Kinds of events other than removals and renames are reported as added or as modified. -/
theorem EventKind.removesOrRenames_of_reporting {k : EventKind} {reporting : Reporting}
    {requirement : Requirement} {kind : ChangeKind}
    (h : k.reporting? = some (reporting, requirement)) (hkind : kind ∈ reporting.kinds)
    (hadded : kind ≠ .added) (hmodified : kind ≠ .modified) : k.removesOrRenames = true := by
  cases k with
  | remove entry => rfl
  | create entry =>
    cases h
    exact absurd (List.mem_singleton.mp hkind) hadded
  | any | other => cases h
  | access kind =>
    cases kind <;> cases h <;> exact absurd (List.mem_singleton.mp hkind) hmodified
  | modify kind =>
    cases kind with
    | name side => rfl
    | any | data _ | metadata _ | other =>
      cases h
      exact absurd (List.mem_singleton.mp hkind) hmodified

theorem invalidatesRoot_iff {scope : Scope} {e : NativeEvent} : invalidatesRoot scope e = true ↔
    ((∃ entry, e.kind = .remove entry) ∨ ∃ side, e.kind = .modify (.name side))
      ∧ ∃ path ∈ e.paths, path.components = scope.root.components := by
  simp only [invalidatesRoot, Bool.and_eq_true, List.any_eq_true, EventKind.removesOrRenames_iff,
    Path.same_iff]

theorem NativeError.losesRoot_iff {scope : Scope} {e : NativeError} : e.losesRoot scope = true ↔
    e.cause = .watchNotFound ∨ ∃ path ∈ e.paths, path.components = scope.root.components := by
  simp only [losesRoot, Bool.or_eq_true, List.any_eq_true, beq_iff_eq, Path.same_iff]

/-- What is said of an event is said in one of the kinds in which the event is reported. -/
theorem kind_of_mem_notificationsOf {d : Disk} {mask : EventMask} {scope : Scope} {e : NativeEvent}
    {n : Notification} (h : n ∈ notificationsOf d mask scope e) :
    ∃ reporting requirement, e.kind.reporting? = some (reporting, requirement)
      ∧ n.kind ∈ reporting.kinds := by
  unfold notificationsOf at h
  rcases hreporting : e.kind.reporting? with _ | ⟨reporting, requirement⟩
  · rw [hreporting] at h
    cases h
  · rw [hreporting] at h
    refine ⟨reporting, requirement, rfl, ?_⟩
    rcases reporting with kind | _
    · obtain ⟨path, -, rfl⟩ := List.mem_map.mp h
      exact List.mem_singleton_self kind
    · rcases List.mem_append.mp h with h | h
      · obtain ⟨path, -, rfl⟩ := Option.map_eq_some_iff.mp (Option.mem_toList.mp h)
        simp [Reporting.kinds]
      · obtain ⟨path, -, rfl⟩ := Option.map_eq_some_iff.mp (Option.mem_toList.mp h)
        simp [Reporting.kinds]

/-- What is said to be gone or to have another name is about an event of removal or of renaming. -/
theorem removesOrRenames_of_mem_notificationsOf {d : Disk} {mask : EventMask} {scope : Scope}
    {e : NativeEvent} {n : Notification} (h : n ∈ notificationsOf d mask scope e)
    (hadded : n.kind ≠ .added) (hmodified : n.kind ≠ .modified) :
    e.kind.removesOrRenames = true := by
  obtain ⟨reporting, requirement, hreporting, hkind⟩ := kind_of_mem_notificationsOf h
  exact EventKind.removesOrRenames_of_reporting hreporting hkind hadded hmodified

namespace NativeWatch

variable {p : NativePolicy} {w : NativeWatch} {l : Listener} {world : World}

/-- A change that a listener reports of an event is said of the event. -/
theorem mem_notificationsOf_of_report {d : Disk} {now : Nat} {e : NativeEvent} {n : Notification}
    (h : n ∈ l.report d now e) : n ∈ notificationsOf d l.events l.scope e := by
  unfold Listener.report at h
  split at h
  · cases h
  · obtain ⟨⟨n', admitted⟩, hmem, rfl⟩ := List.mem_map.mp h
    exact (List.of_mem_zip (List.mem_filter.mp hmem).1).1

theorem hearsLoss_event (hlive : w.live? = some l) (e : NativeEvent) :
    w.hearsLoss (.happening (.event e)) = invalidatesRoot l.scope e := by
  rw [hearsLoss, hlive, Option.any_some]

theorem hearsLoss_failure (hlive : w.live? = some l) (e : NativeError) :
    w.hearsLoss (.happening (.failure e)) = e.losesRoot l.scope := by
  rw [hearsLoss, hlive, Option.any_some]

/-- Whatever happens to a watch between its calls, a rearm is pending afterwards if one was or the
listener has just heard that its root is lost. -/
theorem rearmPending_happening (w : NativeWatch) (world : World) (now : Nat) (h : Happening) :
    (w.act p world now (.happening h)).2.1.rearmPending =
      (w.rearmPending || (p.rearms && w.hearsLoss (.happening h))) := by
  cases h with
  | event e => exact (w.deliver_listens world now e).2.2
  | failure e => exact (w.deliverError_listens world e).2.2
  | lose =>
    show w.lose.2.rearmPending = (w.rearmPending || (p.rearms && false))
    rw [w.lose_listens.2, Bool.and_false, Bool.or_false]
  | edit | openFault | registerFault | nothing =>
    show w.rearmPending = (w.rearmPending || (p.rearms && false))
    rw [Bool.and_false, Bool.or_false]

/-- A failure changes nothing of a watch but whether a rearm is pending. -/
theorem deliverError_eq (w : NativeWatch) (world : World) (e : NativeError) :
    (w.deliverError p world e).2.1 =
      { w with rearmPending := (w.deliverError p world e).2.1.rearmPending } := by
  unfold deliverError
  rcases w.live? with _ | l <;> rfl

/-- **No filter hides that the root is lost.** After an event that a listener heard, whatever its
mask, its scope, its debouncer and its history of renames are, a rearm is pending exactly if one was
before or the event is a removal or a rename of the root, also where the listener reports nothing of
it. When it reports of the root that it is gone or has another name, a rearm is pending. After a
failure a rearm is pending exactly if one was before or the failure is about a watch that is not
there or about the root, and nothing else of the watch has changed. -/
theorem rearm_pending_of_root_loss (hlive : w.live? = some l) (world : World) :
    (∀ (now : Nat) (e : NativeEvent),
      let after := (w.deliver .unix world now e).2.1
      (after.rearmPending = true ↔ w.rearmPending = true
          ∨ ((∃ entry, e.kind = .remove entry) ∨ ∃ side, e.kind = .modify (.name side))
            ∧ ∃ path ∈ e.paths, path.components = l.scope.root.components)
        ∧ ∃ batch, after.queue.toList = w.queue.toList ++ batch
          ∧ ∀ n ∈ batch, n.kind = .removed ∨ n.kind = .renamedFrom ∨ n.kind = .renamedTo →
            n.path.components = l.scope.root.components → after.rearmPending = true)
      ∧ ∀ e : NativeError,
        let after := (w.deliverError .unix world e).2.1
        (after.rearmPending = true ↔ w.rearmPending = true
            ∨ e.cause = .watchNotFound
            ∨ ∃ path ∈ e.paths, path.components = l.scope.root.components)
          ∧ after = { w with rearmPending := after.rearmPending } := by
  constructor
  · intro now e after
    have hpending : after.rearmPending = true ↔
        w.rearmPending = true ∨ invalidatesRoot l.scope e = true := by
      have hlistens := (w.deliver_listens (p := .unix) world now e).2.2
      rw [hearsLoss_event hlive] at hlistens
      show (w.deliver .unix world now e).2.1.rearmPending = true ↔ _
      rw [hlistens, Bool.or_eq_true]
      rfl
    refine ⟨by rw [hpending, invalidatesRoot_iff], w.reported world now e,
      toList_deliver w world now e, ?_⟩
    intro n hn hkind hroot
    rw [reported, hlive] at hn
    have hsaid := mem_notificationsOf_of_report hn
    have hgone : e.kind.removesOrRenames = true := by
      apply removesOrRenames_of_mem_notificationsOf hsaid
      · rintro hadded
        simp [hadded] at hkind
      · rintro hmodified
        simp [hmodified] at hkind
    have hpath : n.path ∈ e.paths := (relevant_of_mem_notificationsOf hsaid).path
    rw [hpending, invalidatesRoot_iff]
    exact .inr ⟨EventKind.removesOrRenames_iff.mp hgone, n.path, hpath, hroot⟩
  · intro e after
    refine ⟨?_, deliverError_eq w world e⟩
    have hlistens := (w.deliverError_listens (p := .unix) world e).2.2
    rw [hearsLoss_failure hlive] at hlistens
    show (w.deliverError .unix world e).2.1.rearmPending = true ↔ _
    rw [hlistens, Bool.or_eq_true, ← NativeError.losesRoot_iff]
    rfl

/-- A rename that was reported in halves and a removal that the mask does not ask for are reported
as nothing, and both are losses of the root, here under another spelling of it. -/
theorem rearm_pending_of_silent_loss :
    let l : Listener := { Listener.fresh ⟨topRequest.path, false⟩ .empty .zero with
      renames := ⟨[7]⟩ }
    let w : NativeWatch := { listener := some l }
    let spelled : Path := ⟨[Path.slash, Path.slash]⟩
    let renamed : NativeEvent := ⟨.modify (.name .both), [spelled], some 7, false⟩
    let removed : NativeEvent := ⟨.remove .any, [spelled], none, false⟩
    w.live? = some l
      ∧ ∀ e ∈ [renamed, removed], (w.deliver .unix { disk := {} } 0 e).2.1.rearmPending = true
        ∧ (w.deliver .unix { disk := {} } 0 e).2.1.queue.toList = [] := by
  intro l w spelled renamed removed
  have hlive : w.live? = some l := rfl
  have hlost : ∀ e ∈ [renamed, removed], invalidatesRoot l.scope e = true := by decide
  have hsilent : ∀ e ∈ [renamed, removed],
      (w.deliver .unix { disk := {} } 0 e).2.1.queue.toList = [] := by decide
  refine ⟨hlive, fun e he => ⟨?_, hsilent e he⟩⟩
  obtain ⟨hevents, -⟩ := rearm_pending_of_root_loss hlive { disk := {} }
  exact (hevents 0 e).1.mpr (.inr (invalidatesRoot_iff.mp (hlost e he)))

end NativeWatch

namespace Watcher

/-- Between calls, whatever goes on for however long, a rearm is pending in the end exactly if one
was at first or the listener heard on the way that its root is lost. -/
theorem rearm_pending_between_calls {w : NativeWatch} {honored : EventMask} {world : World}
    {steps : List (Nat × Step)} (hsteps : ∀ s ∈ steps, ∃ h, s.2 = .happening h) :
    (run ⟨.native .unix w, honored⟩ world steps).2.1.backend.rearmPending = true ↔
      w.rearmPending = true
        ∨ ∃ t ∈ trace ⟨.native .unix w, honored⟩ world steps, t.hearsLoss = true := by
  induction steps generalizing w honored world with
  | nil => simp [run, trace, Backend.rearmPending]
  | cons s rest ih =>
    obtain ⟨now, s⟩ := s
    obtain ⟨h, rfl⟩ : ∃ h, s = .happening h := hsteps (now, s) List.mem_cons_self
    have hfirst := w.rearmPending_happening (p := .unix) world now h
    have hrearms : NativePolicy.unix.rearms = true := rfl
    rw [hrearms, Bool.true_and] at hfirst
    rw [run_native_cons, trace_native_cons, ih fun s' hs' => hsteps s' (List.mem_cons_of_mem _ hs'),
      hfirst, Bool.or_eq_true, List.exists_mem_cons_iff, Transition.hearsLoss_native rfl, or_assoc]

end Watcher

end FileWatch

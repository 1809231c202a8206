import FileWatch.Proofs.Reporting.Relevance
import FileWatch.Proofs.Watcher.Delivery
import FileWatch.Proofs.Watcher.Reached
import Mathlib.Data.List.DropRight

/-! # Provenance — where what is given back comes from

A run is cut at the latest call of `watch` or `stop`, which leaves nothing queued. What is given
back after it was contributed after it, by a step that opened the handle again or by an event, and
an event contributes only what the latest request asks for and the root at that time holds
(`returned_was_asked_for`).
-/

namespace FileWatch

theorem Listener.mem_notificationsOf_of_mem_report {l : Listener} {d : Disk} {now : Nat}
    {e : NativeEvent} {n : Notification} (h : n ∈ l.report d now e) :
    n ∈ notificationsOf d l.events l.scope e := by
  unfold report at h
  split at h
  · cases h
  · obtain ⟨⟨n', admitted⟩, hmem, rfl⟩ := List.mem_map.mp h
    exact (List.of_mem_zip (List.mem_filter.mp hmem).1).1

namespace NativeWatch

variable {p : NativePolicy} {w : NativeWatch} {world : World} {n : Notification}

/-- What a step contributes is a root on which the handle was opened again, or it comes from an
event, is about what is watched, and is asked for by the kept request. -/
theorem Lawful.mem_contribution (h : Lawful p w world) {now : Nat} {s : Watcher.Step}
    (hn : n ∈ w.contribution p world now s) :
    (∃ root ∈ w.reopenedBy p world s, n = ⟨.added, root⟩)
      ∨ ∃ e r root, s = .happening (.event e) ∧ w.request = some r ∧ w.root = some root
        ∧ Relevant (r.events &&& p.supported) ⟨root, r.options.recursive⟩ e n := by
  have hreopened : ∀ roots : List Path, n ∈ roots.map (⟨.added, ·⟩) →
      ∃ root ∈ roots, n = ⟨.added, root⟩ := by
    intro roots hroots
    obtain ⟨root, hroot, rfl⟩ := List.mem_map.mp hroots
    exact ⟨root, hroot, rfl⟩
  cases s with
  | call c => exact .inl (hreopened _ hn)
  | happening happening =>
    cases happening with
    | event e =>
      right
      have hreported : n ∈ w.reported world now e := hn
      unfold reported at hreported
      cases hlive : w.live? with
      | none =>
        rw [hlive] at hreported
        cases hreported
      | some l =>
        rw [hlive] at hreported
        have hlistener : w.listener = some l := (live?_eq_some.mp hlive).1
        cases h with
        | silent listener =>
          rw [listener] at hlistener
          cases hlistener
        | listening l' r listener request serves stage root =>
          obtain rfl : l' = l := Option.some.inj (listener.symm.trans hlistener)
          refine ⟨e, r, l'.scope.root, rfl, request, root, ?_⟩
          have hscope : l'.scope = ⟨l'.scope.root, r.options.recursive⟩ := by
            rw [← serves.recursive]
          have hrelevant := relevant_of_mem_notificationsOf
            (Listener.mem_notificationsOf_of_mem_report hreported)
          rwa [serves.events, hscope] at hrelevant
    | failure e => exact .inl (hreopened _ hn)
    | lose => exact .inl (hreopened _ hn)
    | edit | openFault | registerFault | nothing => exact .inl (hreopened _ hn)

/-- The calls that end the present watch leave nothing queued. -/
theorem queue_act_of_reset (w : NativeWatch) (world : World) (now : Nat) {s : Watcher.Step}
    (hs : s.keepsWatch = false) : (w.act p world now s).2.1.queue = Queue.empty := by
  cases s with
  | call c =>
    cases c with
    | watch r =>
      rcases w.act_watch_cases (p := p) world now r with ⟨root, -, hafter⟩ | ⟨-, hafter⟩
      · rw [hafter]
        rfl
      · rw [hafter]
        rfl
    | stop => rfl
    | start | poll | drain => cases hs
  | happening h => cases hs

end NativeWatch

namespace Watcher

/-! ### The latest request -/

/-- The request of a call of `watch`. -/
def Step.watched? : Step → Option WatchRequest
  | .call (.watch r) => some r
  | _ => none

theorem Step.watched?_of_keeps {s : Step} (hs : ∀ r, s ≠ .call (.watch r)) :
    s.watched? = none := by
  unfold Step.watched?
  split
  · exact absurd rfl (hs _)
  · rfl

/-- The request of the latest call of `watch`. -/
def latestRequest? (steps : List (Nat × Step)) : Option WatchRequest :=
  (steps.filterMap fun s => s.2.watched?).getLast?

theorem latestRequest?_concat_of_keeps {now : Nat} {s : Step} (hs : ∀ r, s ≠ .call (.watch r))
    (steps : List (Nat × Step)) : latestRequest? (steps ++ [(now, s)]) = latestRequest? steps := by
  simp [latestRequest?, Step.watched?_of_keeps hs]

theorem latestRequest?_concat_watch (now : Nat) (r : WatchRequest) (steps : List (Nat × Step)) :
    latestRequest? (steps ++ [(now, .call (.watch r))]) = some r := by
  simp [latestRequest?, Step.watched?]

variable {p : NativePolicy} {before : World} {steps : List (Nat × Step)}

/-- A request that is kept is that of the latest call of `watch`. -/
theorem latestRequest?_of_request? {r : WatchRequest}
    (h : ((ofBackend (.ofPolicy p)).run before steps).2.1.request? = some r) :
    latestRequest? steps = some r := by
  induction steps using List.reverseRecOn generalizing r with
  | nil => cases h
  | append_singleton steps s ih =>
    obtain ⟨now, s⟩ := s
    obtain ⟨w, honored, hend⟩ := exists_native_of_run p before steps
    rw [hend] at ih
    rw [run_concat, hend, step_native] at h
    by_cases hs : ∀ q, s ≠ .call (.watch q)
    · rw [latestRequest?_concat_of_keeps hs]
      exact ih ((w.request_act _ now hs).symm.trans h)
    · obtain ⟨q, rfl⟩ : ∃ q, s = .call (.watch q) := by simpa using hs
      rw [latestRequest?_concat_watch]
      replace h : (w.act p ((ofBackend (.ofPolicy p)).run before steps).2.2 now
          (.call (.watch q))).2.1.request = some r := h
      rcases w.act_watch_cases (p := p) _ now q with ⟨root, -, hafter⟩ | ⟨-, hafter⟩
      · rw [hafter] at h
        exact h
      · rw [hafter] at h
        cases h

/-! ### The latest reset -/

/-- The steps up to the latest call of `watch` or `stop`; none if there is no such call. -/
def untilReset (steps : List (Nat × Step)) : List (Nat × Step) :=
  steps.rdropWhile fun s => s.2.keepsWatch

/-- The steps after the latest call of `watch` or `stop`; all if there is no such call. -/
def sinceReset (steps : List (Nat × Step)) : List (Nat × Step) :=
  steps.rtakeWhile fun s => s.2.keepsWatch

theorem untilReset_append_sinceReset (steps : List (Nat × Step)) :
    untilReset steps ++ sinceReset steps = steps := List.rdropWhile_append_rtakeWhile

theorem keepsWatch_of_mem_sinceReset {s : Nat × Step} (h : s ∈ sinceReset steps) :
    s.2.keepsWatch = true := by
  have hkeeps := List.mem_rtakeWhile_imp h
  exact hkeeps

theorem latestRequest?_untilReset (steps : List (Nat × Step)) :
    latestRequest? (untilReset steps) = latestRequest? steps := by
  have hsince : (sinceReset steps).filterMap (fun s => s.2.watched?) = [] := by
    rw [List.filterMap_eq_nil_iff]
    intro s hs
    have hkeeps := keepsWatch_of_mem_sinceReset hs
    unfold Step.watched?
    split
    · next r hr =>
      rw [hr] at hkeeps
      cases hkeeps
    · rfl
  have hall : latestRequest? steps = latestRequest? (untilReset steps ++ sinceReset steps) := by
    rw [untilReset_append_sinceReset]
  rw [hall, latestRequest?, latestRequest?, List.filterMap_append, hsince, List.append_nil]

/-- After the latest call of `watch` or `stop` nothing is queued. -/
theorem queue_run_untilReset (p : NativePolicy) (before : World) (steps : List (Nat × Step)) :
    ((ofBackend (.ofPolicy p)).run before (untilReset steps)).2.1.backend.queue = Queue.empty := by
  by_cases hnil : untilReset steps = []
  · rw [hnil]
    rfl
  · have hreset : ¬((untilReset steps).getLast hnil).2.keepsWatch = true :=
      List.rdropWhile_last_not _ _ hnil
    have hsplit := List.dropLast_append_getLast hnil
    rw [← hsplit]
    generalize (untilReset steps).getLast hnil = s at hreset ⊢
    obtain ⟨now, s⟩ := s
    obtain ⟨w, honored, hend⟩ := exists_native_of_run p before (untilReset steps).dropLast
    rw [run_concat, hend, step_native]
    exact w.queue_act_of_reset _ now (Bool.eq_false_iff.mpr hreset)

/-- Between two resets a watch stays lawful and keeps its request. -/
theorem lawful_trace_of_keeps {w : NativeWatch} {world : World}
    (h : NativeWatch.Lawful p w world) (honored : EventMask)
    (hsteps : ∀ s ∈ steps, s.2.keepsWatch = true) :
    ∀ t ∈ trace ⟨.native p w, honored⟩ world steps,
      ∃ w' honored', t.before = ⟨.native p w', honored'⟩
        ∧ NativeWatch.Lawful p w' t.world ∧ w'.request = w.request := by
  refine forall_trace_of (fun s => s.keepsWatch = true)
    (fun w' world => NativeWatch.Lawful p w' world ∧ w'.request = w.request) ?_ ⟨h, rfl⟩ hsteps
  rintro w' world now s hs ⟨hlawful, hrequest⟩
  refine ⟨hlawful.act now s, ?_⟩
  have hwatch : ∀ r, s ≠ .call (.watch r) := by
    rintro r rfl
    cases hs
  rw [w'.request_act world now hwatch]
  exact hrequest

/-- **What is given back was asked for.** After any run of a watcher on one of the native backends,
what was given back since the latest call of `watch` or `stop`, and what is still queued, is what
the steps since then contributed, in order. Each of it is the root on which a rearm opened the
handle again, or carries a path of an event as it was delivered. That path is in the scope, as
recursive as the latest request, of the root at that time. The request asks, as far as the backend
can observe it, for a class of content if it is a modification and for a class of names if not, and
the event tells of more than an access. -/
theorem returned_was_asked_for (hp : p = .unix ∨ p = .windows) (hjournal : before.journal = [])
    (steps : List (Nat × Step)) :
    let unused := ofBackend (.ofPolicy p)
    let reset := unused.run before (untilReset steps)
    let rest := reset.2.1.run reset.2.2 (sinceReset steps)
    let ts := reset.2.1.trace reset.2.2 (sinceReset steps)
    unused.run before steps = (reset.1 ++ rest.1, rest.2)
      ∧ rest.1.flatMap (fun a => a.reply.notifications) ++ rest.2.1.backend.queue.toList =
          ts.flatMap Transition.contribution
      ∧ ∀ t ∈ ts, ∀ n ∈ t.contribution,
          (∃ root ∈ t.reopened, n = ⟨.added, root⟩)
            ∨ ∃ e r root, t.step = .happening (.event e) ∧ latestRequest? steps = some r
              ∧ t.before.root? = some root ∧ n.path ∈ e.paths
              ∧ (⟨root, r.options.recursive⟩ : Scope).contains n.path = true
              ∧ (n.kind = .modified →
                  (r.events &&& p.supported).intersects .contentChanges = true)
              ∧ (n.kind ≠ .modified → (r.events &&& p.supported).intersects .nameChanges = true)
              ∧ e.kind.tellsOfAccess = false := by
  intro unused reset rest ts
  have hunobserved : p.supported.intersects (.single .lastAccess) = false := by
    rcases hp with rfl | rfl
    · decide
    · decide
  have hqueue : reset.2.1.backend.queue = Queue.empty := queue_run_untilReset p before steps
  have hreached : Reachable p reset.2.1 reset.2.2 :=
    ⟨before, untilReset steps, hjournal, rfl⟩
  obtain ⟨w, honored, hreset, hstanding⟩ := hreached.standing
  have hlatest : ∀ r, w.request = some r → latestRequest? steps = some r := by
    intro r hr
    rw [← latestRequest?_untilReset steps]
    have hkept : reset.2.1.request? = some r := by
      rw [hreset]
      exact hr
    exact latestRequest?_of_request? hkept
  have hkeeps : ∀ s ∈ sinceReset steps, s.2.keepsWatch = true :=
    fun s hs => keepsWatch_of_mem_sinceReset hs
  refine ⟨?_, ?_, ?_⟩
  · have hall := unused.run_append before (untilReset steps) (sinceReset steps)
    rwa [untilReset_append_sinceReset] at hall
  · have hreturned := run_returns_contributions (p := p) w honored reset.2.2 hkeeps
    have hempty : w.queue = Queue.empty := by
      rw [hreset] at hqueue
      exact hqueue
    rw [hempty, Queue.toList_empty, List.nil_append, ← hreset] at hreturned
    exact hreturned
  · intro t ht n hn
    have hkept : ∀ t ∈ trace ⟨.native p w, honored⟩ reset.2.2 (sinceReset steps),
        ∃ w' honored', t.before = ⟨.native p w', honored'⟩
          ∧ NativeWatch.Lawful p w' t.world ∧ w'.request = w.request :=
      lawful_trace_of_keeps hstanding.lawful honored hkeeps
    rw [← hreset] at hkept
    obtain ⟨w', honored', hbefore, hlawful, hrequest⟩ := hkept t ht
    have hcontributed : n ∈ w'.contribution p t.world t.now t.step := by
      rw [Transition.contribution, hbefore] at hn
      exact hn
    rcases hlawful.mem_contribution hcontributed with hrearm | ⟨e, r, root, hstep, hr, hroot, hn⟩
    · left
      rw [Transition.reopened_native hbefore]
      exact hrearm
    · right
      have hr : w.request = some r := by rw [← hrequest, hr]
      have hroot : t.before.root? = some root := by
        rw [hbefore]
        exact hroot
      refine ⟨e, r, root, hstep, hlatest r hr, hroot, hn.path, hn.scope, hn.content, hn.names, ?_⟩
      refine Bool.eq_false_iff.mpr fun haccess => ?_
      have hshared := EventMask.intersects_right_of_and (hn.access haccess)
      rw [hunobserved] at hshared
      cases hshared

/-- Of a directory that is watched flat, an entry is said to be there and its own entry is not. -/
theorem returned_of_nested_entries :
    let entry : Path := ⟨[Path.slash, 0x61]⟩
    let nested : Path := ⟨[Path.slash, 0x61, Path.slash, 0x62]⟩
    let steps : List (Nat × Step) :=
      [(0, .call (.watch NativeWatch.topRequest)),
        (0, .happening (.event ⟨.create .any, [entry, nested], none, false⟩)),
        (0, .happening (.event ⟨.access .read, [entry], none, false⟩)), (0, .call .poll)]
    let reset := (ofBackend (.ofPolicy .unix)).run { disk := {} } (untilReset steps)
    let ts := reset.2.1.trace reset.2.2 (sinceReset steps)
    ts.flatMap Transition.contribution = [⟨.added, entry⟩]
      ∧ ∃ t ∈ ts, ∃ e, t.step = .happening (.event e) ∧ entry ∈ e.paths
        ∧ e.kind.tellsOfAccess = false := by
  intro entry nested steps reset ts
  have hjournal : ({ disk := {} } : World).journal = [] := rfl
  obtain ⟨-, hreturned, hasked⟩ := returned_was_asked_for (p := .unix) (.inl rfl) hjournal steps
  have hcontributed : ts.flatMap Transition.contribution = [⟨.added, entry⟩] :=
    hreturned.symm.trans (by decide)
  have hsaid : (⟨.added, entry⟩ : Notification) ∈ ts.flatMap Transition.contribution := by
    rw [hcontributed]
    exact List.mem_singleton_self _
  obtain ⟨t, ht, hn⟩ := List.mem_flatMap.mp hsaid
  have hreopened : ∀ t ∈ ts, t.reopened = [] := by decide
  refine ⟨hcontributed, t, ht, ?_⟩
  rcases hasked t ht _ hn with ⟨root, hroot, -⟩ | ⟨e, -, -, hstep, -, -, hpath, -, -, -, haccess⟩
  · rw [hreopened t ht] at hroot
    cases hroot
  · exact ⟨e, hstep, hpath, haccess⟩

end Watcher

end FileWatch

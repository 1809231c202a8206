import FileWatch.Proofs.EventMask.WrittenForm
import FileWatch.Proofs.Watcher.Reached

/-! # Agreement — where the policies do not differ

The policies of Unix and of Windows differ in three things: only Windows handles observe creations,
only they need a directory, and only Unix handles are opened again once their root is lost. A step
divides the two when one of these comes into play (`Transition.divides`). As long as no step does,
the two policies do the same to the same watch (`Agreeing.act_eq`), so runs of both give the same
answers (`run_of_undivided`).
-/

namespace FileWatch

/-! ### Requests that both policies treat alike -/

/-- Whether a path leads to an entry that is not a directory. -/
def Disk.hasNonDirectory (d : Disk) (p : Path) : Bool :=
  match d.status p with
  | .ok e => !e.isDirectory
  | .error _ => false

/-- Two policies that observe the same but for creations, and of which one does not rearm. -/
structure NativePolicy.Akin (p q : NativePolicy) : Prop where
  events : ∀ a : EventMask, a.contains (.single .creation) = false →
    a &&& p.supported = a &&& q.supported
  rearms : p.rearms = false ∨ q.rearms = false

namespace NativePolicy

theorem akin_unix_windows : Akin unix windows := by
  refine ⟨fun a ha => ?_, .inr rfl⟩
  have hwindows : windows.supported = unix.supported ||| .single .creation := by decide
  rw [hwindows, EventMask.and_or_distrib, EventMask.and_single, if_neg (by simp [ha]),
    EventMask.or_empty]

theorem Akin.symm {p q : NativePolicy} (h : Akin p q) : Akin q p :=
  ⟨fun a ha => (h.events a ha).symm, h.rearms.symm⟩

/-- A target that is a directory or not there is valid on every policy or on none. -/
theorem validate_eq {d : Disk} {r : WatchRequest} (h : d.hasNonDirectory r.path = false)
    (p q : NativePolicy) : p.validate d r = q.validate d r := by
  unfold validate
  unfold Disk.hasNonDirectory at h
  split
  · rfl
  · cases hstatus : d.status r.path with
    | error fault => rfl
    | ok e =>
      rw [hstatus] at h
      simp only [h, Bool.and_false, Bool.false_eq_true, if_false]

end NativePolicy

namespace NativeWatch

variable {p q : NativePolicy} {w : NativeWatch} {world : World} {r : WatchRequest}

theorem attempt_eq (h : world.disk.hasNonDirectory r.path = false) :
    attempt q world r = attempt p world r := by
  rw [attempt, attempt, NativePolicy.validate_eq h q p]

theorem opened_eq (h : r.events &&& p.supported = r.events &&& q.supported) (root : Path) :
    w.opened q r root = w.opened p r root := by
  rw [opened, opened, listenerFor, listenerFor, h]

/-! ### The calls of a watch that is not to be opened again -/

theorem watch_eq_of_alike (hevents : r.events &&& p.supported = r.events &&& q.supported)
    (htarget : world.disk.hasNonDirectory r.path = false) :
    w.watch q world r = w.watch p world r := by
  have hserving : ∀ root, serving q r root = serving p r root := fun root => opened_eq hevents root
  rw [watch_eq, watch_eq, attempt_eq (p := p) (q := q) (by rwa [disk_released])]
  simp only [hserving]

theorem start_eq_of_settled (hsettled : w.rearmPending = false)
    (hevents : ∀ r, w.request = some r → r.events &&& p.supported = r.events &&& q.supported)
    (htarget : w.listener = none → ∀ r, w.request = some r →
      world.disk.hasNonDirectory r.path = false) :
    w.start q world = w.start p world := by
  rw [start_eq, start_eq, rearmIfPending_of_settled world hsettled,
    rearmIfPending_of_settled world hsettled]
  cases hl : w.listener with
  | some l =>
    have hlistening : w.listener.isSome = true := by rw [hl]; rfl
    rw [resume_of_listening world hlistening, resume_of_listening world hlistening]
  | none =>
    cases hr : w.request with
    | none => rw [resume_of_unrequested world hr, resume_of_unrequested world hr]
    | some r =>
      rw [resume_of_silent world hl hr, resume_of_silent world hl hr,
        attempt_eq (p := p) (q := q) (htarget hl r hr)]
      simp only [opened_eq (hevents r hr)]

theorem poll_of_settled (p : NativePolicy) (hsettled : w.rearmPending = false) :
    w.poll p world = (w.queue.poll.1, { w with queue := w.queue.poll.2 }, world) := by
  rw [poll_eq, rearmIfPending_of_settled world hsettled]

theorem drain_eq_of_settled (hsettled : w.rearmPending = false) :
    polls q (w.drainPolls q world) w world = polls p (w.drainPolls p world) w world := by
  have hpoll : ∀ (w : NativeWatch) (world : World), w.rearmPending = false →
      w.poll q world = w.poll p world := by
    intro w world h
    rw [poll_of_settled q h, poll_of_settled p h]
  have hkept : ∀ (w : NativeWatch) (world : World), w.rearmPending = false →
      (w.poll p world).2.1.rearmPending = false := by
    intro w world h
    rw [poll_of_settled p h]
    exact h
  exact drain_of_poll (f := id) (g := id) (fun w _ => w.rearmPending = false) hpoll hkept hsettled

theorem deliver_eq_of_kept {now : Nat} {e : NativeEvent}
    (h : ∀ l, w.live? = some l → invalidatesRoot l.scope e = false) :
    w.deliver q world now e = w.deliver p world now e := by
  unfold deliver
  cases hlive : w.live? with
  | none => rfl
  | some l => simp only [h l hlive, Bool.and_false]

theorem deliverError_eq_of_kept {e : NativeError}
    (h : ∀ l, w.live? = some l → e.losesRoot l.scope = false) :
    w.deliverError q world e = w.deliverError p world e := by
  unfold deliverError
  cases hlive : w.live? with
  | none => rfl
  | some l => simp only [h l hlive, Bool.and_false]

end NativeWatch

namespace Watcher

/-! ### The steps that divide the policies -/

/-- Whether one of the paths is the root that is watched. -/
def namesRoot (f : Watcher) (paths : List Path) : Bool :=
  f.root?.any fun root => paths.any fun path => path.same root

/-- Whether the policies may differ in a step: an event is delivered that the root was removed or
renamed, or a failure that the watch is lost or that is about the root, a mask asks for creations,
or a request is validated whose target is there and is not a directory. -/
def Transition.divides (t : Transition) : Bool :=
  match t.step with
  | .happening (.event e) =>
    t.reply == .delivered true && e.kind.removesOrRenames && t.before.namesRoot e.paths
  | .happening (.failure e) =>
    t.reply == .delivered true && (e.cause == .watchNotFound || t.before.namesRoot e.paths)
  | .call (.watch r) =>
    r.events.contains (.single .creation) || t.world.disk.hasNonDirectory r.path
  | .call .start =>
    t.before.listener?.isNone
      && t.before.request?.any fun r => t.world.disk.hasNonDirectory r.path
  | _ => false

theorem Transition.alike_of_watch {t : Transition} (ht : t.divides = false) {r : WatchRequest}
    (hstep : t.step = .call (.watch r)) :
    r.events.contains (.single .creation) = false
      ∧ t.world.disk.hasNonDirectory r.path = false := by
  rw [Transition.divides, hstep] at ht
  exact Bool.or_eq_false_iff.mp ht

variable {p q : NativePolicy} {w : NativeWatch} {world : World}

/-- What holds of a watch between calls while two policies agree on it. -/
structure Agreeing (p q : NativePolicy) (w : NativeWatch) (world : World) : Prop where
  lawful : NativeWatch.Lawful p w world
  lawful' : NativeWatch.Lawful q w world
  events : ∀ r, w.request = some r → r.events &&& p.supported = r.events &&& q.supported

/-- Policies that agree on a watch are not to open its handle again: one of them never is. -/
theorem Agreeing.settled (h : Agreeing p q w world) (hpq : p.Akin q) : w.rearmPending = false := by
  by_contra hpending
  replace hpending : w.rearmPending = true := by simpa using hpending
  rcases hpq.rearms with hrearms | hrearms
  · exact absurd ((h.lawful.rearms hpending).symm.trans hrearms) Bool.noConfusion
  · exact absurd ((h.lawful'.rearms hpending).symm.trans hrearms) Bool.noConfusion

theorem Agreeing.root_of_live (h : Agreeing p q w world) {l : Listener} (hl : w.live? = some l) :
    w.root = some l.scope.root := by
  have hlistener := (NativeWatch.live?_eq_some.mp hl).1
  cases h.lawful with
  | silent listener =>
    rw [listener] at hlistener
    cases hlistener
  | listening l' r listener request serves stage root =>
    obtain rfl : l' = l := Option.some.inj (listener.symm.trans hlistener)
    exact root

theorem Transition.target_of_start {honored : EventMask} {t : Transition}
    (hbefore : t.before = ⟨.native p w, honored⟩) (ht : t.divides = false)
    (hstep : t.step = .call .start) (hl : w.listener = none) {r : WatchRequest}
    (hr : w.request = some r) : t.world.disk.hasNonDirectory r.path = false := by
  have hlistener : t.before.listener? = none := by
    rw [hbefore]
    exact hl
  have hrequest : t.before.request? = some r := by
    rw [hbefore]
    exact hr
  simp only [Transition.divides, hstep, hlistener, hrequest, Option.isNone_none, Option.any_some,
    Bool.true_and] at ht
  exact ht

section Undivided

variable {honored : EventMask} {t : Transition} (h : Agreeing p q w t.world)
  (hbefore : t.before = ⟨.native p w, honored⟩) (ht : t.divides = false)
include h hbefore

theorem Agreeing.namesRoot_of_live {l : Listener} (hl : w.live? = some l) (paths : List Path) :
    t.before.namesRoot paths = paths.any fun path => path.same l.scope.root := by
  have hroot : t.before.root? = some l.scope.root := by
    rw [hbefore]
    exact h.root_of_live hl
  rw [namesRoot, hroot, Option.any_some]

include ht

/-- An event that does not divide the policies leaves the root to the handle. -/
theorem Agreeing.keeps_root_of_event {e : NativeEvent} (hstep : t.step = .happening (.event e))
    {l : Listener} (hl : w.live? = some l) : invalidatesRoot l.scope e = false := by
  have hreply : t.reply = .delivered true := by
    rw [Transition.reply_native hbefore, hstep]
    show Reply.delivered (w.deliver p t.world t.now e).1 = .delivered true
    rw [NativeWatch.deliver, hl]
  simp only [Transition.divides, hstep, hreply, beq_self_eq_true, Bool.true_and,
    h.namesRoot_of_live hbefore hl] at ht
  exact ht

/-- So does a failure. -/
theorem Agreeing.keeps_root_of_failure {e : NativeError} (hstep : t.step = .happening (.failure e))
    {l : Listener} (hl : w.live? = some l) : e.losesRoot l.scope = false := by
  have hreply : t.reply = .delivered true := by
    rw [Transition.reply_native hbefore, hstep]
    show Reply.delivered (w.deliverError p t.world e).1 = .delivered true
    rw [NativeWatch.deliverError, hl]
  simp only [Transition.divides, hstep, hreply, beq_self_eq_true, Bool.true_and,
    h.namesRoot_of_live hbefore hl] at ht
  exact ht

variable (hpq : p.Akin q)
include hpq

/-- In a step that does not divide them, both policies do the same. -/
theorem Agreeing.act_eq : w.act q t.world t.now t.step = w.act p t.world t.now t.step := by
  cases hstep : t.step with
  | call c =>
    cases c with
    | watch r =>
      obtain ⟨hmask, htarget⟩ := Transition.alike_of_watch ht hstep
      rw [NativeWatch.act, NativeWatch.act,
        NativeWatch.watch_eq_of_alike (hpq.events _ hmask) htarget]
    | start =>
      rw [NativeWatch.act, NativeWatch.act, NativeWatch.start_eq_of_settled (h.settled hpq) h.events
        fun hl r hr => Transition.target_of_start hbefore ht hstep hl hr]
    | stop => rfl
    | poll =>
      rw [NativeWatch.act, NativeWatch.act, NativeWatch.poll_of_settled q (h.settled hpq),
        NativeWatch.poll_of_settled p (h.settled hpq)]
    | drain =>
      rw [NativeWatch.act, NativeWatch.act, NativeWatch.drain_eq_of_settled (h.settled hpq)]
  | happening happening =>
    cases happening with
    | event e =>
      rw [NativeWatch.act, NativeWatch.act, NativeWatch.deliver_eq_of_kept
        fun l hl => h.keeps_root_of_event hbefore ht hstep hl]
    | failure e =>
      rw [NativeWatch.act, NativeWatch.act, NativeWatch.deliverError_eq_of_kept
        fun l hl => h.keeps_root_of_failure hbefore ht hstep hl]
    | edit | openFault | registerFault | lose | nothing => rfl

theorem Agreeing.act :
    Agreeing p q (w.act p t.world t.now t.step).2.1 (w.act p t.world t.now t.step).2.2 := by
  -- the other policy keeps the watch lawful by its own step, which is the same one
  have hlawful' := h.lawful'.act t.now t.step
  rw [h.act_eq hbefore ht hpq] at hlawful'
  refine ⟨h.lawful.act t.now t.step, hlawful', fun r hr => ?_⟩
  rcases t.step.watch_cases with ⟨r', hstep⟩ | hkeeps
  · rw [hstep] at hr
    rcases w.act_watch_cases (p := p) t.world t.now r' with ⟨root, -, hafter⟩ | ⟨-, hafter⟩
    · rw [hafter] at hr
      obtain rfl : r' = r := Option.some.inj hr
      exact hpq.events _ (Transition.alike_of_watch ht hstep).1
    · rw [hafter] at hr
      cases hr
  · rw [w.request_act t.world t.now hkeeps] at hr
    exact h.events r hr

omit h hbefore in
theorem honoredAfter_eq_of_undivided (reply : Reply) :
    honoredAfter q honored t.step reply = honoredAfter p honored t.step reply := by
  rcases t.step.watch_cases with ⟨r, hstep⟩ | hkeeps
  · rw [hstep]
    cases reply with
    | established b =>
      cases b with
      | true => exact (hpq.events _ (Transition.alike_of_watch ht hstep).1).symm
      | false => rfl
    | nothing | polled | drained | delivered => rfl
  · rw [honoredAfter_of_keeps honored hkeeps, honoredAfter_of_keeps honored hkeeps]

end Undivided

/-! ### Runs -/

/-- The watcher with the same watch under another policy. -/
def under (q : NativePolicy) (f : Watcher) : Watcher :=
  { f with
    backend := match f.backend with
      | .native _ w => .native q w
      | b => b }

/-- Along a run without a step that divides them, both policies do the same. -/
theorem Agreeing.run_eq (hpq : p.Akin q) (h : Agreeing p q w world) (honored : EventMask)
    {steps : List (Nat × Step)}
    (hsteps : ∀ t ∈ trace ⟨.native p w, honored⟩ world steps, t.divides = false) :
    run ⟨.native q w, honored⟩ world steps =
      (run ⟨.native p w, honored⟩ world steps).map id (Prod.map (under q) id) := by
  induction steps generalizing w honored world with
  | nil => rfl
  | cons s rest ih =>
    obtain ⟨now, s⟩ := s
    let t : Transition := ⟨⟨.native p w, honored⟩, world, now, s⟩
    have ht : t.divides = false := hsteps t (List.mem_cons_self ..)
    have hact : w.act q world now s = w.act p world now s := h.act_eq (t := t) rfl ht hpq
    have hnext : Agreeing p q (w.act p world now s).2.1 (w.act p world now s).2.2 :=
      h.act (t := t) rfl ht hpq
    have hhonored : ∀ reply, honoredAfter q honored s reply = honoredAfter p honored s reply :=
      honoredAfter_eq_of_undivided (t := t) ht hpq
    rw [trace_native_cons] at hsteps
    rw [run_native_cons, run_native_cons, hact]
    -- from here on only what the step came to matters
    generalize w.act p world now s = acted at hnext hsteps ⊢
    obtain ⟨reply, w', world'⟩ := acted
    have hrest := ih hnext (honoredAfter p honored s reply) fun t' ht' =>
      hsteps t' (List.mem_cons_of_mem _ ht')
    simp only [Prod.map, id, hhonored, hrest]
    rfl

/-- **The native backends agree where their policies do not differ.** Take any run on the backend of
Unix or on that of Windows in which no event is delivered that the root was removed or renamed, no
failure is delivered that the watch is lost or that names the root, no mask that is requested asks
for creations, and no request is validated while its target is there and is not a directory. The
other backend, driven by the same steps at the same times from the same world, gives the same answer
to every step. It also does the same to the world, journal included, and ends with the same watch. -/
theorem run_of_undivided {before : World} (hjournal : before.journal = [])
    (hpolicies : p = .unix ∧ q = .windows ∨ p = .windows ∧ q = .unix) {steps : List (Nat × Step)}
    (hsteps : ∀ t ∈ (ofBackend (.ofPolicy p)).trace before steps, t.divides = false) :
    let one := (ofBackend (.ofPolicy p)).run before steps
    let other := (ofBackend (.ofPolicy q)).run before steps
    one.1 = other.1 ∧ one.2.2 = other.2.2 ∧ other.2.1 = one.2.1.under q := by
  intro one other
  have hpq : p.Akin q := by
    rcases hpolicies with ⟨rfl, rfl⟩ | ⟨rfl, rfl⟩
    · exact NativePolicy.akin_unix_windows
    · exact NativePolicy.akin_unix_windows.symm
  have hheld : before.holding? = some false := by simp [World.holding?, hjournal]
  have hunused : Agreeing p q NativeWatch.fresh before := by
    refine ⟨NativeWatch.lawful_fresh hheld, NativeWatch.lawful_fresh hheld, fun r hr => ?_⟩
    cases hr
  have hother : other = one.map id (Prod.map (under q) id) := hunused.run_eq hpq .empty hsteps
  rw [hother]
  exact ⟨rfl, rfl, rfl⟩

/-- Both backends say the same of an entry that comes and goes, do not mind a failure that is about
something else, and find back to a watch that was stopped and whose handle did not open at once. -/
theorem run_of_undivided_failures :
    let entry : Path := ⟨[Path.slash, 0x61]⟩
    let request : WatchRequest := ⟨⟨[Path.slash]⟩, .nameChanges, {}⟩
    let steps : List (Nat × Step) :=
      [(0, .call (.watch request)), (0, .happening (.event ⟨.create .any, [entry], none, false⟩)),
        (0, .happening (.event ⟨.remove .any, [entry], none, false⟩)),
        (0, .happening (.failure ⟨.tooManyWatches, [entry]⟩)), (0, .call .poll), (0, .call .poll),
        (0, .call .stop), (0, .happening (.openFault ⟨.tooManyWatches, []⟩)), (0, .call .start),
        (0, .call .start), (0, .call (.watch { request with path := entry }))]
    let one := (ofBackend (.ofPolicy .unix)).run { disk := {} } steps
    let other := (ofBackend (.ofPolicy .windows)).run { disk := {} } steps
    one.1 = other.1
      ∧ one.1.map Answer.reply =
          [.established true, .delivered true, .delivered true, .delivered true,
            .polled (some ⟨.added, entry⟩), .polled (some ⟨.removed, entry⟩), .nothing, .nothing,
            .nothing, .nothing, .established false]
      ∧ one.1.map Answer.stage =
          [.running, .running, .running, .running, .running, .running, .idle, .idle, .idle,
            .running, .idle] := by
  intro entry request steps one other
  have hjournal : ({ disk := {} } : World).journal = [] := rfl
  have hundivided : ∀ t ∈ (ofBackend (.ofPolicy .unix)).trace { disk := {} } steps,
      t.divides = false := by decide
  obtain ⟨hanswers, -⟩ :=
    run_of_undivided (p := .unix) (q := .windows) hjournal (.inl ⟨rfl, rfl⟩) hundivided
  exact ⟨hanswers, by decide, by decide⟩

end Watcher

end FileWatch

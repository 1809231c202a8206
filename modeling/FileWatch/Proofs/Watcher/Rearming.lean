import FileWatch.Proofs.Watcher.Trace

/-! # Rearming — no pending rearm is lost

One detection cycle has three outcomes for a pending rearm, by whether its target is valid and a
handle opens (`rearmIfPending_cases`). Over a run, a step `raises` the rearm, `settles` it by
opening the handle again, or `discards` it by a call of `watch` or `stop`. The books of these three
are balanced (`rearm_balance`), and each rearm that is settled queues one notification.
-/

namespace FileWatch

namespace NativeWatch

variable {p : NativePolicy} {w : NativeWatch} {world : World} {r : WatchRequest}

/-- What a detection cycle makes of a pending rearm. -/
theorem Lawful.rearmIfPending_cases (h : Lawful p w world) (hpending : w.rearmPending = true)
    (hr : w.request = some r) :
    match p.validate world.disk r with
    | .error e => NativeWatch.rearmIfPending p w world = (w, world.note (.refused e))
    | .ok root =>
      if world.opensHandles = true then
        NativeWatch.rearmIfPending p w world =
          ({ w with
              stage := .running, root := some root, rearmPending := false
              listener := some (Listener.fresh ⟨root, r.options.recursive⟩
                (r.events &&& p.supported) r.options.debounce)
              queue := w.queue.push ⟨.added, root⟩ },
            ((w.released world).note .opened).note (.registered root r.options.recursive))
      else
        (NativeWatch.rearmIfPending p w world).1 =
            { w with stage := .idle, root := none, listener := none }
          ∧ (NativeWatch.rearmIfPending p w world).2.holding? = some false := by
  cases hvalid : p.validate world.disk r with
  | error e => exact rearmIfPending_of_invalid hpending hr hvalid
  | ok root =>
    cases hopens : world.opensHandles with
    | true =>
      simp only [if_true]
      exact rearmIfPending_of_opens hpending hr hvalid hopens
    | false =>
      obtain ⟨e, he⟩ := rearmIfPending_of_not_opens hpending hr hvalid hopens
      have hafter : (NativeWatch.rearmIfPending p w world).1 = w.closed := by rw [he]
      simp only [Bool.false_eq_true, if_false]
      refine ⟨hafter, ?_⟩
      rw [h.rearmIfPending.held, hafter]
      rfl

end NativeWatch

namespace Watcher

namespace Transition

/-- Whether a rearm is pending after the step that was not pending before. -/
def raises (t : Transition) : Bool :=
  !t.before.backend.rearmPending && t.after.backend.rearmPending

/-- Whether no rearm is pending after the step, though one was before. -/
def clears (t : Transition) : Bool :=
  t.before.backend.rearmPending && !t.after.backend.rearmPending

/-- Whether a pending rearm ends though the watch is kept. -/
def settles (t : Transition) : Bool := t.clears && t.step.keepsWatch

/-- Whether a pending rearm ends with a call of `watch` or `stop`. -/
def discards (t : Transition) : Bool := t.clears && !t.step.keepsWatch

theorem balance (t : Transition) :
    t.before.backend.rearmPending.toNat + t.raises.toNat =
      t.settles.toNat + t.discards.toNat + t.after.backend.rearmPending.toNat := by
  unfold raises settles discards clears
  cases t.before.backend.rearmPending <;> cases t.after.backend.rearmPending <;>
    cases t.step.keepsWatch <;> rfl

variable {p : NativePolicy} {w : NativeWatch} {honored : EventMask} {t : Transition}

/-- A step that settles a rearm opens the handle again, once. No other step opens it again. -/
theorem length_reopened (hbefore : t.before = ⟨.native p w, honored⟩)
    (hw : NativeWatch.Lawful p w t.world) : t.reopened.length = t.settles.toNat := by
  have hafter := backend_after_native hbefore
  have hreopened := reopened_native hbefore
  have hpending : t.before.backend.rearmPending = w.rearmPending := by rw [hbefore]; rfl
  unfold settles clears
  rw [hafter, hreopened, hpending]
  show _ = (w.rearmPending && !(w.act p t.world t.now t.step).2.1.rearmPending
    && t.step.keepsWatch).toNat
  cases hstep : t.step with
  | call c =>
    cases hkeeps : (Step.call c).keepsWatch with
    | true =>
      have hcall := hw.pending_act_call t.now hkeeps
      revert hcall
      cases w.rearmPending <;> cases (w.act p t.world t.now (.call c)).2.1.rearmPending <;> simp
    | false =>
      rw [Bool.and_false]
      cases c with
      | watch r => rfl
      | stop => rfl
      | start => cases hkeeps
      | poll => cases hkeeps
      | drain => cases hkeeps
  | happening h =>
    have hkept := NativeWatch.pending_act_happening (p := p) w t.world t.now h
    cases hw : w.rearmPending with
    | false => rfl
    | true =>
      rw [hkept hw]
      rfl

end Transition

theorem countP_cons_toNat (q : Transition → Bool) (t : Transition) (ts : List Transition) :
    (t :: ts).countP q = ts.countP q + (q t).toNat := by
  rw [List.countP_cons]
  cases q t <;> rfl

theorem length_flatMap_reopened {ts : List Transition}
    (hts : ∀ t ∈ ts, t.reopened.length = t.settles.toNat) :
    (ts.flatMap Transition.reopened).length = ts.countP Transition.settles := by
  induction ts with
  | nil => rfl
  | cons t ts ih =>
    rw [List.flatMap_cons, List.length_append, countP_cons_toNat, hts t (by simp),
      ih (fun t' ht' => hts t' (List.mem_cons_of_mem t ht')), Nat.add_comm]

/-- What was raised was settled, was discarded or is pending still. -/
theorem rearm_balance (f : Watcher) (world : World) (steps : List (Nat × Step)) :
    f.backend.rearmPending.toNat + (f.trace world steps).countP Transition.raises =
      (f.trace world steps).countP Transition.settles
        + (f.trace world steps).countP Transition.discards
        + (f.run world steps).2.1.backend.rearmPending.toNat := by
  induction steps generalizing f world with
  | nil => simp [trace, run]
  | cons s rest ih =>
    obtain ⟨now, s⟩ := s
    let first : Transition := ⟨f, world, now, s⟩
    have hfirst : f.backend.rearmPending.toNat + first.raises.toNat =
        first.settles.toNat + first.discards.toNat + first.after.backend.rearmPending.toNat :=
      first.balance
    have hrest := ih first.after first.worldAfter
    show f.backend.rearmPending.toNat
        + (first :: first.after.trace first.worldAfter rest).countP Transition.raises =
      (first :: first.after.trace first.worldAfter rest).countP Transition.settles
        + (first :: first.after.trace first.worldAfter rest).countP Transition.discards
        + (first.after.run first.worldAfter rest).2.1.backend.rearmPending.toNat
    rw [countP_cons_toNat, countP_cons_toNat, countP_cons_toNat]
    omega

/-- **A pending rearm is never lost**, and it costs no notification. A detection cycle leaves it
pending with everything else as it was while the target is not valid. It settles it, with a new
listener on the new root and one notification more, when a handle opens, and otherwise keeps it
with the request and the queue, without the old listener. So nothing but a settled rearm and the
calls `watch` and `stop` end what is pending, and a run queues one notification for each rearm that
it settles. -/
theorem pending_rearm_never_lost {w : NativeWatch} {world : World}
    (h : NativeWatch.Reachable .unix w world) (honored : EventMask) :
    (w.rearmPending = true → ∀ d : Disk, ∃ r, w.request = some r ∧
      let here : World := { world with disk := d }
      let cycle := NativeWatch.rearmIfPending .unix w here
      w.poll .unix here =
          (cycle.1.queue.poll.1, { cycle.1 with queue := cycle.1.queue.poll.2 }, cycle.2)
        ∧ match NativePolicy.unix.validate d r with
          | .error e => cycle = (w, here.note (.refused e))
          | .ok root =>
            if here.opensHandles = true then
              cycle =
                ({ w with
                    stage := .running, root := some root, rearmPending := false
                    listener := some (Listener.fresh ⟨root, r.options.recursive⟩
                      (r.events &&& NativePolicy.unix.supported) r.options.debounce)
                    queue := w.queue.push ⟨.added, root⟩ },
                  ((w.released here).note .opened).note (.registered root r.options.recursive))
            else
              cycle.1 = { w with stage := .idle, root := none, listener := none }
                ∧ cycle.2.holding? = some false)
      ∧ ∀ steps : List (Nat × Step),
        let f : Watcher := ⟨.native .unix w, honored⟩
        let ts := f.trace world steps
        (∀ t ∈ ts, t.clears = true → t.discards = true ∨ ∃ root, t.reopened = [root])
          ∧ (∀ t ∈ ts, ∀ c, t.step = .call c → t.step.keepsWatch = true →
              t.reply.notifications ++ t.after.backend.queue.toList =
                t.before.backend.queue.toList ++ t.reopened.map (⟨.added, ·⟩))
          ∧ (ts.flatMap Transition.reopened).length = ts.countP Transition.settles
          ∧ w.rearmPending.toNat + ts.countP Transition.raises =
              ts.countP Transition.settles + ts.countP Transition.discards
                + (f.run world steps).2.1.backend.rearmPending.toNat := by
  refine ⟨fun hpending d => ?_, fun steps => ?_⟩
  · obtain ⟨r, hr⟩ := h.lawful.request_of_pending hpending
    -- the watch is lawful on any disk: only the handles in the journal matter
    have hhere : NativeWatch.Lawful .unix w { world with disk := d } := h.lawful.of_holding rfl
    exact ⟨r, hr, rfl, hhere.rearmIfPending_cases hpending hr⟩
  · intro f ts
    have hlawful : ∀ t ∈ ts, ∃ w' honored',
        t.before = ⟨.native .unix w', honored'⟩ ∧ NativeWatch.Lawful .unix w' t.world :=
      forall_trace (fun w world now s hw => hw.act now s) h.lawful steps
    have hlength : ∀ t ∈ ts, t.reopened.length = t.settles.toNat := by
      intro t ht
      obtain ⟨w', honored', hbefore, hw'⟩ := hlawful t ht
      exact Transition.length_reopened hbefore hw'
    refine ⟨fun t ht hclears => ?_, fun t ht c hc hkeeps => ?_, ?_, rearm_balance f world steps⟩
    · cases hkeeps : t.step.keepsWatch with
      | false =>
        left
        rw [Transition.discards, hclears, hkeeps]
        rfl
      | true =>
        right
        have hone := hlength t ht
        rw [Transition.settles, hclears, hkeeps] at hone
        exact List.length_eq_one_iff.mp hone
    · obtain ⟨w', honored', hbefore, -⟩ := hlawful t ht
      rw [Transition.reply_native hbefore, Transition.backend_after_native hbefore,
        Transition.reopened_native hbefore, hbefore, hc]
      exact NativeWatch.toList_act_call w' t.world t.now (hc ▸ hkeeps)
    · exact length_flatMap_reopened hlength

/-- The rearm of a bereft watch is settled by the next poll, which finds two notifications. -/
theorem bereft_rearm_settled :
    let f : Watcher := ⟨.native .unix NativeWatch.bereft.1, EventMask.all⟩
    let steps : List (Nat × Step) := [(0, .call .poll), (0, .call .poll)]
    let cycle := NativeWatch.rearmIfPending .unix NativeWatch.bereft.1 NativeWatch.bereft.2
    (∃ r, NativeWatch.bereft.1.request = some r) ∧ cycle.1.queue.length = 2
      ∧ ((f.trace NativeWatch.bereft.2 steps).flatMap Transition.reopened).length = 1
      ∧ (f.run NativeWatch.bereft.2 steps).2.1.backend.rearmPending = false := by
  intro f steps cycle
  obtain ⟨hcycle, hrun⟩ := pending_rearm_never_lost NativeWatch.reachable_bereft EventMask.all
  obtain ⟨r, hr, -, -⟩ := hcycle (by decide) NativeWatch.bereft.2.disk
  obtain ⟨-, -, hqueued, -⟩ := hrun steps
  exact ⟨⟨r, hr⟩, by decide, hqueued.trans (by decide), by decide⟩

end Watcher

end FileWatch

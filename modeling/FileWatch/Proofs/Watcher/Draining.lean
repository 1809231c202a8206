import FileWatch.Proofs.Watcher.Reached

/-! # Draining — a drain ends, and gives back all there is

A drain is polls up to the first that returns nothing, and each of these polls begins with a
detection cycle. So a drain may itself queue a notification, when a pending rearm succeeds in one of
its polls, and that need not be the first of them. The rearm is settled by then, so it happens once
at most, and what a drain gives back is what was queued and at most one notification more
(`drain_exact`).

`RearmsOn` says of a step, by what is seen of the watcher before and after it, that it opened the
handle again on a root.
-/

namespace FileWatch

namespace NativeWatch

variable {p : NativePolicy} {w : NativeWatch} {world : World} {r : WatchRequest} {root : Path}

/-- When a detection cycle opens the handle again, and on which root. -/
theorem reopened?_eq_some : w.reopened? p world = some root ↔
    w.rearmPending = true ∧ world.opensHandles = true
      ∧ ∃ r, w.request = some r ∧ p.validate world.disk r = .ok root := by
  have hvalid (r : WatchRequest) :
      (p.validate world.disk r).toOption = some root ↔ p.validate world.disk r = .ok root := by
    rcases p.validate world.disk r with e | root' <;> simp [Except.toOption]
  unfold reopened?
  by_cases hready : (w.rearmPending && world.opensHandles) = true
  · obtain ⟨hpending, hopens⟩ := Bool.and_eq_true_iff.mp hready
    rw [if_pos hready, Option.bind_eq_some_iff]
    simp only [hvalid, hpending, hopens, true_and]
  · rw [if_neg hready]
    constructor
    · intro h
      cases h
    · rintro ⟨hpending, hopens, -⟩
      exact absurd (Bool.and_eq_true_iff.mpr ⟨hpending, hopens⟩) hready

/-- Nothing is queued after a poll that returns nothing. -/
theorem toList_of_poll_none (h : (w.poll p world).1 = none) :
    (w.poll p world).2.1.queue.toList = [] := by
  have hhead : (rearmIfPending p w world).1.queue.toList.head? = none := h
  show (rearmIfPending p w world).1.queue.toList.tail = []
  rw [List.head?_eq_none_iff.mp hhead]
  rfl

/-- Nothing is queued after a drain. -/
theorem toList_of_drain (w : NativeWatch) (world : World) :
    (polls p (w.drainPolls p world) w world).2.1.queue.toList = [] := by
  induction w, world using poll_induction (p := p) with
  | last w world hpoll =>
    rw [drainPolls, drain_of_none hpoll]
    exact toList_of_poll_none hpoll
  | further w world n hpoll ih =>
    rw [drainPolls, drain_of_some hpoll, List.length_cons, polls_succ]
    exact ih

/-- A drain gives back what was queued, and the roots on which its polls opened the handle again. -/
theorem drain_fst (w : NativeWatch) (world : World) :
    ((Backend.native p w).drain world).1 =
      w.queue.toList
        ++ (reopenedByPolls p (w.drainPolls p world) w world).map (⟨.added, ·⟩) := by
  have hall := toList_polls (p := p) (w.drainPolls p world) w world
  rw [toList_of_drain, List.append_nil] at hall
  rw [← hall, drain_eq_polls]
  rfl

end NativeWatch

namespace Watcher

/-- So many polls. -/
def pollSteps (n : Nat) : List (Nat × Step) := List.replicate n (0, .call .poll)

/-- A step ended a pending rearm by opening a handle on a root. -/
structure Transition.RearmsOn (t : Transition) (root : Path) : Prop where
  pending : t.before.backend.rearmPending = true
  settled : t.after.backend.rearmPending = false
  opened : t.worldAfter.handlesOpened = t.world.handlesOpened + 1
  root : t.after.root? = some root
  running : t.after.backend.stage = .running

variable {p : NativePolicy} {w : NativeWatch} {honored : EventMask} {world : World} {root : Path}

/-! ### A drain as a run of polls -/

theorem run_pollSteps_succ (n : Nat) :
    run ⟨.native p w, honored⟩ world (pollSteps (n + 1)) =
      let f : Watcher := ⟨.native p (w.poll p world).2.1, honored⟩
      (f.answer (.polled (w.poll p world).1) :: (f.run (w.poll p world).2.2 (pollSteps n)).1,
        (f.run (w.poll p world).2.2 (pollSteps n)).2) := by
  rw [pollSteps, List.replicate_succ, run_native_cons]
  rfl

theorem trace_pollSteps_succ (n : Nat) :
    trace ⟨.native p w, honored⟩ world (pollSteps (n + 1)) =
      ⟨⟨.native p w, honored⟩, world, 0, .call .poll⟩
        :: trace ⟨.native p (w.poll p world).2.1, honored⟩ (w.poll p world).2.2 (pollSteps n) := by
  rw [pollSteps, List.replicate_succ, trace_native_cons]
  rfl

theorem run_pollSteps (n : Nat) :
    (run ⟨.native p w, honored⟩ world (pollSteps n)).2 =
      (⟨.native p (NativeWatch.polls p n w world).2.1, honored⟩,
        (NativeWatch.polls p n w world).2.2) := by
  induction n generalizing w world with
  | zero => rfl
  | succ n ih =>
    rw [run_pollSteps_succ, NativeWatch.polls_succ]
    exact ih

/-- The polls of a drain return what it gives back, one by one, and then nothing. -/
theorem replies_of_drain (w : NativeWatch) (honored : EventMask) (world : World) :
    (run ⟨.native p w, honored⟩ world (pollSteps (w.drainPolls p world))).1.map Answer.reply =
      ((Backend.native p w).drain world).1.map (fun n => .polled (some n)) ++ [.polled none] := by
  induction w, world using NativeWatch.poll_induction (p := p) with
  | last w world hpoll =>
    rw [NativeWatch.drainPolls, NativeWatch.drain_of_none hpoll, List.length_nil,
      run_pollSteps_succ, hpoll]
    rfl
  | further w world n hpoll ih =>
    rw [NativeWatch.drainPolls, NativeWatch.drain_of_some hpoll, List.length_cons,
      run_pollSteps_succ, hpoll, List.map_cons, List.map_cons, List.cons_append]
    exact congrArg _ ih

/-! ### The rearms in a drain -/

/-- A poll ends a pending rearm on the root on which its detection cycle opens the handle again. -/
theorem rearmsOn_poll_iff (now : Nat) :
    Transition.RearmsOn ⟨⟨.native p w, honored⟩, world, now, .call .poll⟩ root ↔
      w.reopened? p world = some root := by
  constructor
  · intro h
    have hopened : (NativeWatch.rearmIfPending p w world).2.handlesOpened =
        world.handlesOpened + 1 := h.opened
    have hroot : (NativeWatch.rearmIfPending p w world).1.root = some root := h.root
    rw [NativeWatch.handlesOpened_rearmIfPending] at hopened
    rcases hreopened : w.reopened? p world with _ | root'
    · rw [hreopened] at hopened
      simp at hopened
    · obtain ⟨hpending, hopens, r, hr, hvalid⟩ := NativeWatch.reopened?_eq_some.mp hreopened
      rw [NativeWatch.rearmIfPending_of_opens hpending hr hvalid hopens] at hroot
      exact hroot
  · intro hreopened
    obtain ⟨hpending, hopens, r, hr, hvalid⟩ := NativeWatch.reopened?_eq_some.mp hreopened
    have hcycle := NativeWatch.rearmIfPending_of_opens hpending hr hvalid hopens
    have hopened := NativeWatch.handlesOpened_rearmIfPending (p := p) w world
    rw [hreopened] at hopened
    refine ⟨hpending, ?_, hopened, ?_, ?_⟩
    · show (NativeWatch.rearmIfPending p w world).1.rearmPending = false
      rw [hcycle]
    · show (NativeWatch.rearmIfPending p w world).1.root = some root
      rw [hcycle]
      rfl
    · show (NativeWatch.rearmIfPending p w world).1.stage = .running
      rw [hcycle]
      rfl

theorem mem_reopenedByPolls_iff (n : Nat) : root ∈ NativeWatch.reopenedByPolls p n w world ↔
    ∃ t ∈ trace ⟨.native p w, honored⟩ world (pollSteps n), t.RearmsOn root := by
  induction n generalizing w world with
  | zero => simp [NativeWatch.reopenedByPolls, pollSteps, trace]
  | succ n ih =>
    rw [trace_pollSteps_succ, NativeWatch.reopenedByPolls]
    simp only [List.mem_cons, exists_eq_or_imp, rearmsOn_poll_iff, List.mem_append,
      Option.mem_toList, ih]

/-- **A drain ends and is exact.** Whatever the disk and the failures that native handles will meet,
a drain makes two polls at most besides one for each notification that was queued. It gives back
what was queued, in order, and one notification more exactly if a rearm was pending and one of
these polls ended it by opening the handle on a root: that the root was added. Nothing is queued
afterwards. -/
theorem drain_exact {f : Watcher} (h : Reachable p f world) (d : Disk)
    (openFault registerFault : Option NativeError) :
    let here : World := { world with disk := d, openFault, registerFault }
    let drained := (f.drain here).1
    let polls := pollSteps (drained.length + 1)
    drained.length + 1 ≤ f.backend.pending + 2
      ∧ (f.run here polls).2 = (f.drain here).2
      ∧ (f.run here polls).1.map Answer.reply =
          drained.map (fun n => .polled (some n)) ++ [.polled none]
      ∧ (∃ further, drained = f.backend.queue.toList ++ further
        ∧ (further = [] ∨ ∃ root, further = [⟨.added, root⟩])
        ∧ ∀ root, further = [⟨.added, root⟩] ↔
            f.backend.rearmPending = true ∧ ∃ t ∈ f.trace here polls, t.RearmsOn root)
      ∧ (f.drain here).2.1.backend.pending = 0 := by
  intro here drained polls
  obtain ⟨w, honored, rfl, hstanding⟩ := h.standing
  have hlawful : NativeWatch.Lawful p w here := hstanding.lawful.of_holding rfl
  have hdrained : drained = w.queue.toList
      ++ (NativeWatch.reopenedByPolls p (w.drainPolls p here) w here).map (⟨.added, ·⟩) :=
    NativeWatch.drain_fst w here
  have hafter : (drain ⟨.native p w, honored⟩ here).2 =
      (⟨.native p (NativeWatch.polls p (w.drainPolls p here) w here).2.1, honored⟩,
        (NativeWatch.polls p (w.drainPolls p here) w here).2.2) := by
    rw [drain, NativeWatch.drain_eq_polls]
    rfl
  have hrearmed (root : Path) :
      root ∈ NativeWatch.reopenedByPolls p (w.drainPolls p here) w here ↔
        ∃ t ∈ trace ⟨.native p w, honored⟩ here polls, t.RearmsOn root :=
    mem_reopenedByPolls_iff (w.drainPolls p here)
  -- a rearm that was settled is not pending any more, so it was settled once
  have hpending := hlawful.pending_polls (w.drainPolls p here)
  have hbit : w.rearmPending.toNat ≤ 1 := Bool.toNat_le _
  generalize NativeWatch.reopenedByPolls p (w.drainPolls p here) w here = reopened
    at hdrained hrearmed hpending
  refine ⟨?_, ?_, replies_of_drain w honored here, ⟨reopened.map (⟨.added, ·⟩), hdrained, ?_, ?_⟩,
    ?_⟩
  · show drained.length + 1 ≤ w.queue.toList.length + 2
    rw [hdrained, List.length_append, List.length_map]
    omega
  · rw [hafter]
    exact run_pollSteps (w.drainPolls p here)
  · rcases reopened with _ | ⟨root, rest⟩
    · exact .inl rfl
    · have hrest : rest.length = 0 := by
        rw [List.length_cons] at hpending
        omega
      rw [List.length_eq_zero_iff.mp hrest]
      exact .inr ⟨root, rfl⟩
  · intro root
    show _ ↔ w.rearmPending = true ∧ _
    rw [← hrearmed]
    constructor
    · intro hfurther
      obtain ⟨root', rfl, hroot⟩ := List.map_eq_singleton_iff.mp hfurther
      obtain rfl : root' = root := congrArg Notification.path hroot
      refine ⟨?_, List.mem_singleton_self root'⟩
      rw [List.length_singleton] at hpending
      exact Bool.toNat_eq_one.mp (by omega)
    · rintro ⟨-, hmem⟩
      have hlength : reopened.length = 1 := by
        have hpos := List.length_pos_of_mem hmem
        omega
      obtain ⟨root', rfl⟩ := List.length_eq_one_iff.mp hlength
      rw [List.mem_singleton.mp hmem]
      rfl
  · rw [hafter]
    exact List.length_eq_zero_iff.mpr (NativeWatch.toList_of_drain w here)

/-- A watcher heard its root go away, and its next handle fails to open: a drain takes what was
queued with its first poll, reopens the handle with the second one, and finds nothing with the
third. -/
theorem drain_retries_rearm :
    let lost : List (Nat × Step) :=
      [(0, .call (.watch NativeWatch.topRequest)),
        (0, .happening (.event NativeWatch.topRemoved))]
    let heard := ((ofBackend (.ofPolicy .unix)).run { disk := {} } lost).2
    let here : World := { heard.2 with openFault := some ⟨.tooManyWatches, []⟩ }
    Reachable .unix heard.1 heard.2 ∧ heard.1.backend.pending = 1
      ∧ (heard.1.drain here).1 =
        [⟨.removed, NativeWatch.topRequest.path⟩, ⟨.added, NativeWatch.topRequest.path⟩]
      ∧ (heard.1.drain here).2.1.backend.pending = 0 := by
  intro lost heard here
  have hreachable : Reachable .unix heard.1 heard.2 := ⟨{ disk := {} }, lost, rfl, rfl⟩
  obtain ⟨-, -, hreplies, ⟨further, hdrained, hshape, -⟩, hempty⟩ :=
    drain_exact hreachable {} (some ⟨.tooManyWatches, []⟩) none
  have hqueue : heard.1.backend.queue.toList = [⟨.removed, NativeWatch.topRequest.path⟩] := by
    decide
  rw [hqueue] at hdrained
  refine ⟨hreachable, by decide, ?_, hempty⟩
  rcases hshape with rfl | ⟨root, rfl⟩
  · -- the second of two polls would have returned nothing
    rw [hdrained] at hreplies
    revert hreplies
    decide
  · rw [hdrained] at hreplies
    have hthree : (heard.1.run here (pollSteps 3)).1.map Answer.reply =
        [.polled (some ⟨.removed, NativeWatch.topRequest.path⟩),
          .polled (some ⟨.added, NativeWatch.topRequest.path⟩), .polled none] := by decide
    have hroot : NativeWatch.topRequest.path = root := by
      simpa using hthree.symm.trans hreplies
    rwa [← hroot] at hdrained

end Watcher

end FileWatch

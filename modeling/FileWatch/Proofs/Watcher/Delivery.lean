import FileWatch.Proofs.Watcher.Renewal

/-! # Delivery — what is queued is given back, in order

Each step of a watch makes a `contribution`: what the live listener reports of an event, or the
roots on which the handle is opened again. The queue is between the contributions and what the
calls give back (`toList_act`), so along a run nothing is lost, doubled or put in another place,
whatever becomes of the listeners (`run_returns_contributions`).
-/

namespace FileWatch

namespace Debouncer

/-- Which of the notifications are admitted at the time `now`. -/
def decisions (d : Debouncer) (now : Nat) : List Notification → List Bool
  | [] => []
  | n :: ns => (d.offer n now).1 :: (d.offer n now).2.decisions now ns

/-- The debouncer takes out what it refuses, and leaves the rest in order. -/
theorem offerAll_fst (d : Debouncer) (now : Nat) (ns : List Notification) :
    (d.offerAll now ns).1 = ((ns.zip (d.decisions now ns)).filter Prod.snd).map Prod.fst := by
  induction ns generalizing d with
  | nil => rfl
  | cons n ns ih =>
    rw [decisions, List.zip_cons_cons, List.filter_cons, offerAll]
    simp only [ih]
    cases (d.offer n now).1 <;> rfl

end Debouncer

/-- What a listener reports of an event: nothing of a rename that it has heard of, and of any other
event its translation without what the debouncer refuses. -/
def Listener.report (l : Listener) (d : Disk) (now : Nat) (e : NativeEvent) : List Notification :=
  if (l.renames.record e).1 then []
  else
    let ns := notificationsOf d l.events l.scope e
    ((ns.zip (l.debouncer.decisions now ns)).filter Prod.snd).map Prod.fst

theorem Listener.handle_fst (l : Listener) (d : Disk) (now : Nat) (e : NativeEvent) :
    (l.handle d now e).1 = l.report d now e := by
  rw [handle_eq, report]
  cases (l.renames.record e).1 with
  | true => rfl
  | false => exact l.debouncer.offerAll_fst now (notificationsOf d l.events l.scope e)

namespace NativeWatch

variable (p : NativePolicy) (w : NativeWatch) (world : World) (now : Nat)

/-- What the live listener, if there is one, reports of an event. -/
def reported (e : NativeEvent) : List Notification :=
  match w.live? with
  | none => []
  | some l => l.report world.disk now e

/-- What a step adds to the notifications of a watch. -/
def contribution : Watcher.Step → List Notification
  | .happening (.event e) => w.reported world now e
  | s => (w.reopenedBy p world s).map (⟨.added, ·⟩)

variable {p}

theorem toList_deliver (e : NativeEvent) :
    (w.deliver p world now e).2.1.queue.toList = w.queue.toList ++ w.reported world now e := by
  unfold deliver reported
  cases w.live? with
  | none => simp
  | some l => simp [Listener.handle_fst]

theorem queue_deliverError (e : NativeError) : (w.deliverError p world e).2.1.queue = w.queue := by
  unfold deliverError
  cases w.live? <;> rfl

theorem queue_lose : w.lose.2.queue = w.queue := by
  unfold lose
  cases w.live? <;> rfl

/-- What a step that keeps the watch gives back comes first in the queue, and what it contributes
last. -/
theorem toList_act {s : Watcher.Step} (hs : s.keepsWatch = true) :
    (w.act p world now s).1.notifications ++ (w.act p world now s).2.1.queue.toList =
      w.queue.toList ++ w.contribution p world now s := by
  cases s with
  | call c => exact toList_act_call w world now hs
  | happening h =>
    cases h with
    | event e => exact toList_deliver w world now e
    | failure e =>
      show (w.deliverError p world e).2.1.queue.toList = w.queue.toList ++ []
      rw [queue_deliverError, List.append_nil]
    | lose =>
      show w.lose.2.queue.toList = w.queue.toList ++ []
      rw [queue_lose, List.append_nil]
    | edit | openFault | registerFault | nothing => exact (List.append_nil _).symm

end NativeWatch

namespace Watcher

/-- What the step adds to the notifications of the watcher. -/
def Transition.contribution (t : Transition) : List Notification :=
  match t.before.backend with
  | .native p w => w.contribution p t.world t.now t.step
  | _ => []

/-- What a run that keeps the watch gives back, with what is still queued after it. -/
theorem run_returns_contributions {p : NativePolicy} (w : NativeWatch) (honored : EventMask)
    (world : World) {steps : List (Nat × Step)} (hsteps : ∀ s ∈ steps, s.2.keepsWatch = true) :
    (run ⟨.native p w, honored⟩ world steps).1.flatMap (fun a => a.reply.notifications)
        ++ (run ⟨.native p w, honored⟩ world steps).2.1.backend.queue.toList =
      w.queue.toList
        ++ (trace ⟨.native p w, honored⟩ world steps).flatMap Transition.contribution := by
  induction steps generalizing w honored world with
  | nil => simp [run, trace, Backend.queue]
  | cons s rest ih =>
    obtain ⟨now, s⟩ := s
    have hfirst := w.toList_act (p := p) world now (hsteps (now, s) (by simp))
    have hrest := ih (w.act p world now s).2.1 (honoredAfter p honored s (w.act p world now s).1)
      (w.act p world now s).2.2 (fun s' hs' => hsteps s' (List.mem_cons_of_mem _ hs'))
    rw [run_native_cons, trace_native_cons]
    -- the rest of the run begins with what the first step leaves in the queue
    simp only [List.flatMap_cons, List.append_assoc]
    rw [hrest, ← List.append_assoc]
    show (w.act p world now s).1.notifications ++ (w.act p world now s).2.1.queue.toList ++ _ = _
    rw [hfirst, List.append_assoc]
    rfl

/-- **What is queued is given back, in order.** After a call of `watch` that succeeded, and until
the next one or a call of `stop`, the notifications given back and those still queued are what the
steps contributed, one after the other. -/
theorem returned_and_queued_of_watch {p : NativePolicy} {w : NativeWatch} {honored : EventMask}
    {world : World} {r : WatchRequest} (hwatch : (watch ⟨.native p w, honored⟩ world r).1 = true)
    {steps : List (Nat × Step)} (hsteps : ∀ s ∈ steps, s.2.keepsWatch = true) :
    let (_, f, begun) := watch ⟨.native p w, honored⟩ world r
    (f.run begun steps).1.flatMap (fun a => a.reply.notifications)
        ++ (f.run begun steps).2.1.backend.queue.toList =
      (f.trace begun steps).flatMap Transition.contribution := by
  obtain ⟨root, -, hserving⟩ := watch_of_established hwatch
  show ((watch ⟨.native p w, honored⟩ world r).2.1.run _ steps).1.flatMap _
    ++ ((watch ⟨.native p w, honored⟩ world r).2.1.run _ steps).2.1.backend.queue.toList =
      ((watch ⟨.native p w, honored⟩ world r).2.1.trace _ steps).flatMap _
  rw [hserving]
  exact run_returns_contributions (NativeWatch.serving p r root) _ _ hsteps

/-- A failed rearm between the loss of a root and its return costs no notification. -/
theorem returned_of_failed_rearm :
    let steps : List (Nat × Step) :=
      [(0, .happening (.event NativeWatch.topRemoved)),
        (0, .happening (.openFault ⟨.tooManyWatches, []⟩)), (0, .call .poll), (0, .call .poll)]
    let (live, f, begun) :=
      watch (ofBackend (.ofPolicy .unix)) { disk := {} } NativeWatch.topRequest
    live = true ∧ (∀ s ∈ steps, s.2.keepsWatch = true)
      ∧ (f.run begun steps).1.flatMap (fun a => a.reply.notifications)
          ++ (f.run begun steps).2.1.backend.queue.toList =
        [⟨.removed, ⟨[Path.slash]⟩⟩, ⟨.added, ⟨[Path.slash]⟩⟩] := by
  have hwatch :
      (watch (ofBackend (.ofPolicy .unix)) { disk := {} } NativeWatch.topRequest).1 = true := by
    decide
  intro steps
  have hsteps : ∀ s ∈ steps, s.2.keepsWatch = true := by decide
  have hreturned := returned_and_queued_of_watch hwatch hsteps
  exact ⟨hwatch, hsteps, hreturned.trans (by decide)⟩

end Watcher

end FileWatch

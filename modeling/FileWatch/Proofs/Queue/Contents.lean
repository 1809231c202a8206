import FileWatch.Proofs.Queue.Handles
import Mathlib.Data.List.DropRight

/-! # Contents — handles as views of independent lists

What waits in a queue is what the actions through its own handles make of an empty list, whatever is
done through other handles in between (`toList_queueAt`). What was taken out since the latest clear,
and then what still waits, is what was put in since (`taken_append_waiting`).
-/

namespace FileWatch

namespace QueueAction

/-- What the action puts in, in one piece. -/
def added : QueueAction → List Notification
  | .push n => [n]
  | .extend batch => batch
  | .poll | .clear | .length | .isEmpty | .clone | .fresh => []

/-- Whether the action discards what waits. -/
def clears : QueueAction → Bool
  | .clear => true
  | .push _ | .extend _ | .poll | .length | .isEmpty | .clone | .fresh => false

end QueueAction

/-- The notification that a reply hands out. -/
def QueueReply.taken? : QueueReply → Option Notification
  | .polled n => n
  | .nothing | .counted _ | .told _ | .handle _ => none

namespace QueueTable

variable {acts : List (Nat × QueueAction)} {k h : Nat} {a : QueueAction}

/-! ### The dealings of a history -/

/-- An action through a handle, with the reply to it. -/
structure Dealing where
  handle : Nat
  action : QueueAction
  reply : QueueReply

/-- The actions with the replies to them. -/
def dealings (t : QueueTable) : List (Nat × QueueAction) → List Dealing
  | [] => []
  | (k, a) :: acts => ⟨k, a, (t.act k a).1⟩ :: (t.act k a).2.dealings acts

theorem dealings_concat (t : QueueTable) (acts : List (Nat × QueueAction)) (k : Nat)
    (a : QueueAction) :
    t.dealings (acts ++ [(k, a)]) =
      t.dealings acts ++ [⟨k, a, ((t.after acts).act k a).1⟩] := by
  induction acts generalizing t with
  | nil => rfl
  | cons x acts ih =>
    rw [List.cons_append, dealings, ih, dealings, List.cons_append]
    rfl

theorem handle_of_mem_dealings {t : QueueTable} {x : Dealing} (hx : x ∈ t.dealings acts) :
    (x.handle, x.action) ∈ acts := by
  induction acts generalizing t with
  | nil => cases hx
  | cons y acts ih =>
    rcases List.mem_cons.mp hx with rfl | hrest
    · exact List.mem_cons_self ..
    · exact List.mem_cons_of_mem _ (ih hrest)

/-! ### What waits in a queue -/

/-- What actions make of an empty list. -/
def contents (as : List QueueAction) : List Notification := as.foldl QueueAction.onList []

/-- The actions through the handles of the queue at a place. -/
def actionsAt (acts : List (Nat × QueueAction)) (place : Nat) : List QueueAction :=
  (acts.filter fun x => (single.after acts).placeOf x.1 = place).map Prod.snd

/-- The dealings through the handles of the queue at a place. -/
def dealingsAt (acts : List (Nat × QueueAction)) (place : Nat) : List Dealing :=
  (single.dealings acts).filter fun x => (single.after acts).placeOf x.handle = place

/-- The actions and replies since the latest clear. -/
def sinceClear (ds : List Dealing) : List Dealing := ds.rtakeWhile fun x => !x.action.clears

theorem actionsAt_concat (hacts : IsProper (acts ++ [(k, a)])) (place : Nat) :
    actionsAt (acts ++ [(k, a)]) place =
      if (single.after acts).placeOf k = place then actionsAt acts place ++ [a]
      else actionsAt acts place := by
  obtain ⟨hbefore, hk⟩ := isProper_concat.mp hacts
  have hearlier : acts.filter (fun x => (single.after (acts ++ [(k, a)])).placeOf x.1 = place) =
      acts.filter fun x => (single.after acts).placeOf x.1 = place :=
    List.filter_congr fun x hx => by rw [placeOf_after_concat (hbefore.lt_of_mem hx)]
  rw [actionsAt, List.filter_append, hearlier, List.map_append, List.filter_singleton,
    placeOf_after_concat hk]
  by_cases hplace : (single.after acts).placeOf k = place
  · simp [hplace, actionsAt]
  · simp [hplace, actionsAt]

theorem dealingsAt_concat (hacts : IsProper (acts ++ [(k, a)])) (place : Nat) :
    dealingsAt (acts ++ [(k, a)]) place =
      if (single.after acts).placeOf k = place then
        dealingsAt acts place ++ [⟨k, a, ((single.after acts).act k a).1⟩]
      else dealingsAt acts place := by
  obtain ⟨hbefore, hk⟩ := isProper_concat.mp hacts
  have hearlier : (single.dealings acts).filter
        (fun x => (single.after (acts ++ [(k, a)])).placeOf x.handle = place) =
      (single.dealings acts).filter fun x => (single.after acts).placeOf x.handle = place :=
    List.filter_congr fun x hx => by
      rw [placeOf_after_concat (hbefore.lt_of_mem (handle_of_mem_dealings hx))]
  rw [dealingsAt, dealings_concat, List.filter_append, hearlier, List.filter_singleton,
    placeOf_after_concat hk]
  by_cases hplace : (single.after acts).placeOf k = place
  · simp [hplace, dealingsAt]
  · simp [hplace, dealingsAt]

/-- Nothing was done through a handle of a queue that is not there yet. -/
theorem actionsAt_of_le (hacts : IsProper acts) {place : Nat}
    (hplace : (single.after acts).queues.length ≤ place) :
    actionsAt acts place = [] ∧ dealingsAt acts place = [] := by
  have hne : ∀ i < handleCount acts, (single.after acts).placeOf i ≠ place :=
    fun i hi => ((placeOf_lt hacts hi).trans_le hplace).ne
  constructor
  · rw [actionsAt, List.map_eq_nil_iff, List.filter_eq_nil_iff]
    intro x hx
    simpa using hne x.1 (hacts.lt_of_mem hx)
  · rw [dealingsAt, List.filter_eq_nil_iff]
    intro x hx
    simpa using hne x.handle (hacts.lt_of_mem (handle_of_mem_dealings hx))

/-- A property of the actions, the dealings and the list of a queue holds of every queue if it holds
of an empty queue and each action through a handle of the queue keeps it. -/
theorem queue_induction {P : List QueueAction → List Dealing → List Notification → Prop}
    (hempty : P [] [] [])
    (hstep : ∀ as ds l d, P as ds l → (∃ next, d.reply = d.action.replyOn l next) →
      P (as ++ [d.action]) (ds ++ [d]) (d.action.onList l))
    (hacts : IsProper acts) {place : Nat} (hplace : place < (single.after acts).queues.length) :
    P (actionsAt acts place) (dealingsAt acts place) ((single.after acts).queueAt place).toList := by
  induction acts using List.reverseRecOn with
  | nil =>
    obtain rfl : place = 0 := Nat.lt_one_iff.mp hplace
    exact hempty
  | append_singleton acts x ih =>
    obtain ⟨k, a⟩ := x
    obtain ⟨hbefore, hk⟩ := isProper_concat.mp hacts
    rw [actionsAt_concat hacts, dealingsAt_concat hacts]
    by_cases hold : place < (single.after acts).queues.length
    · by_cases hown : (single.after acts).placeOf k = place
      · subst hown
        rw [if_pos rfl, if_pos rfl, after_concat, toList_queueAt_act_self _ k a hold]
        exact hstep _ _ _ ⟨k, a, ((single.after acts).act k a).1⟩ (ih hbefore hold)
          ⟨_, reply_act _ k a⟩
      · rw [if_neg hown, if_neg hown, after_concat, queueAt_act_of_ne _ k a hold hown]
        exact ih hbefore hold
    · -- the queue was made by the last action
      have hother : (single.after acts).placeOf k ≠ place :=
        fun hown => hold (hown ▸ placeOf_lt hbefore hk)
      obtain ⟨hactions, hdealings⟩ := actionsAt_of_le hbefore (Nat.not_lt.mp hold)
      rw [if_neg hother, if_neg hother, hactions, hdealings]
      rw [after_concat] at hplace ⊢
      by_cases ha : a = .fresh
      · subst ha
        rw [length_queues_fresh] at hplace
        obtain rfl : place = (single.after acts).queues.length := by omega
        rw [queueAt_fresh]
        exact hempty
      · rw [length_queues_act_of_ne_fresh _ k a ha] at hplace
        exact absurd hplace hold

/-- What waits in a queue is what the actions through its handles make of an empty list. -/
theorem toList_queueAt (hacts : IsProper acts) {place : Nat}
    (hplace : place < (single.after acts).queues.length) :
    ((single.after acts).queueAt place).toList = contents (actionsAt acts place) := by
  refine queue_induction (P := fun as _ l => l = contents as) rfl ?_ hacts hplace
  rintro as ds l d rfl -
  simp [contents]

/-- What was taken since the latest clear, and what waits, is what was put in since. -/
theorem taken_append_waiting (hacts : IsProper acts) {place : Nat}
    (hplace : place < (single.after acts).queues.length) :
    (sinceClear (dealingsAt acts place)).filterMap (fun x => x.reply.taken?)
        ++ ((single.after acts).queueAt place).toList =
      (sinceClear (dealingsAt acts place)).flatMap fun x => x.action.added := by
  refine queue_induction
    (P := fun _ ds l => (sinceClear ds).filterMap (fun x => x.reply.taken?) ++ l =
      (sinceClear ds).flatMap fun x => x.action.added) rfl ?_ hacts hplace
  rintro as ds l ⟨k, a, reply⟩ hlaw ⟨next, rfl : reply = a.replyOn l next⟩
  have hkept : a.clears = false → ∀ reply,
      sinceClear (ds ++ [⟨k, a, reply⟩]) = sinceClear ds ++ [⟨k, a, reply⟩] := fun ha reply =>
    List.rtakeWhile_concat_pos _ ds _ (by simp [ha])
  cases a with
  | clear =>
    have hcut : sinceClear (ds ++ [⟨k, .clear, .nothing⟩]) = [] :=
      List.rtakeWhile_concat_neg _ ds _ (by simp [QueueAction.clears])
    show (sinceClear (ds ++ [⟨k, .clear, .nothing⟩])).filterMap _ ++ [] =
      (sinceClear (ds ++ [⟨k, .clear, .nothing⟩])).flatMap _
    rw [hcut]
    rfl
  | push n =>
    rw [hkept rfl, List.filterMap_append, List.flatMap_append, ← hlaw]
    simp [QueueAction.replyOn, QueueReply.taken?, QueueAction.onList, QueueAction.added]
  | extend batch =>
    rw [hkept rfl, List.filterMap_append, List.flatMap_append, ← hlaw]
    simp [QueueAction.replyOn, QueueReply.taken?, QueueAction.onList, QueueAction.added]
  | poll =>
    rw [hkept rfl, List.filterMap_append, List.flatMap_append, ← hlaw]
    cases l with
    | nil => simp [QueueAction.replyOn, QueueReply.taken?, QueueAction.onList, QueueAction.added]
    | cons n l =>
      simp [QueueAction.replyOn, QueueReply.taken?, QueueAction.onList, QueueAction.added]
  | _ =>
    rw [hkept rfl, List.filterMap_append, List.flatMap_append, ← hlaw]
    simp [QueueAction.replyOn, QueueReply.taken?, QueueAction.onList, QueueAction.added]

/-- **Handles are views of independent lists.** Two handles name one queue exactly when clones
connect them. What waits behind a handle is what the actions through the handles of its queue make
of an empty list, and a reply is that of this list. An action through a connected handle changes the
list, and one through any other leaves it alone. What was taken out since the latest clear, and then
what waits, is what was put in since, batch after batch. -/
theorem handles_view_lists (hacts : IsProper acts) :
    let t := single.after acts
    (∀ h < handleCount acts, ∀ h' < handleCount acts,
        t.placeOf h = t.placeOf h' ↔ AreConnected acts h h')
      ∧ ∀ h < handleCount acts,
        let l := contents (actionsAt acts (t.placeOf h))
        let since := sinceClear (dealingsAt acts (t.placeOf h))
        let taken := since.filterMap fun x => x.reply.taken?
        (t.queueOf h).toList = l
          ∧ (∀ a, (t.act h a).1 = a.replyOn l (handleCount acts))
          ∧ (∀ k < handleCount acts, AreConnected acts k h →
              ∀ a, ((t.act k a).2.queueOf h).toList = a.onList l)
          ∧ (∀ k < handleCount acts, ¬ AreConnected acts k h →
              ∀ a, (t.act k a).2.queueOf h = t.queueOf h)
          ∧ taken ++ (t.queueOf h).toList = since.flatMap (fun x => x.action.added)
          ∧ ∀ x ∈ since, x.action.added <:+: taken ++ (t.queueOf h).toList := by
  intro t
  have hlength : t.handles.length = handleCount acts := length_handles_after acts
  refine ⟨fun h hh h' hh' => placeOf_eq_iff hacts hh hh', fun h hh => ?_⟩
  have hplace : t.placeOf h < t.queues.length := placeOf_lt hacts hh
  have hlist : (t.queueOf h).toList = contents (actionsAt acts (t.placeOf h)) :=
    toList_queueAt hacts hplace
  -- a handle names the same queue after the action as before it
  have hkept : ∀ k a, (t.act k a).2.queueOf h = (t.act k a).2.queueAt (t.placeOf h) := by
    intro k a
    show (t.act k a).2.queueAt ((t.act k a).2.placeOf h) = _
    rw [placeOf_act t k a (hlength ▸ hh)]
  intro l since taken
  have hlaw : taken ++ (t.queueOf h).toList = since.flatMap fun x => x.action.added :=
    taken_append_waiting hacts hplace
  refine ⟨hlist, fun a => ?_, fun k hk hconnected a => ?_, fun k hk hapart a => ?_, hlaw, ?_⟩
  · rw [reply_act, hlist, hlength]
  · have hsame : t.placeOf k = t.placeOf h := (placeOf_eq_iff hacts hk hh).mpr hconnected
    have hown := toList_queueAt_act_self t k a (hsame ▸ hplace)
    rw [hkept, ← hsame, hown, queueOf, hsame]
    exact congrArg (fun l => a.onList l) hlist
  · have hother : t.placeOf k ≠ t.placeOf h :=
      fun hsame => hapart ((placeOf_eq_iff hacts hk hh).mp hsame)
    rw [hkept, queueAt_act_of_ne t k a hplace hother]
    rfl
  · intro x hx
    obtain ⟨before, later, hsplit⟩ := List.append_of_mem hx
    rw [hlaw, hsplit, List.flatMap_append, List.flatMap_cons]
    exact ⟨before.flatMap _, later.flatMap _, by rw [List.append_assoc]⟩

/-- A clone of a clone sees what was put in through the first handle and not taken through the second,
and nothing of the queue that was made in between. -/
theorem handles_view_lists_of_clones :
    let n (i : UInt8) : Notification := ⟨.modified, ⟨[i]⟩⟩
    let acts : List (Nat × QueueAction) :=
      [(0, .push (n 1)), (0, .clone), (1, .fresh), (1, .clone), (2, .push (n 4)),
        (0, .extend [n 2, n 3]), (1, .poll)]
    IsProper acts ∧ AreConnected acts 0 3 ∧ ¬ AreConnected acts 0 2
      ∧ ((single.after acts).queueOf 3).toList = [n 2, n 3]
      ∧ ((single.after acts).act 3 .length).1 = .counted 2 := by
  intro n acts
  have hacts : IsProper acts := by decide
  obtain ⟨hplaces, hviews⟩ := handles_view_lists hacts
  obtain ⟨hlist, hreply, -⟩ := hviews 3 (by decide)
  refine ⟨hacts, (hplaces 0 (by decide) 3 (by decide)).mp (by decide), fun hconnected => ?_,
    hlist.trans (by decide), (hreply .length).trans (by decide)⟩
  exact absurd ((hplaces 0 (by decide) 2 (by decide)).mpr hconnected) (by decide)

end QueueTable

end FileWatch

import FileWatch.Queue
import Mathlib.Data.List.GetD
import Mathlib.Data.List.Induction
import Mathlib.Logic.Relation
import Mathlib.Order.Nat

/-! # Handles — which queue a handle names

A handle names the queue of the handle it was cloned from, or a queue of its own, and goes on to do
so. After a proper history, in which every action goes through a handle that is there, two handles
name one queue exactly when clones connect them (`placeOf_eq_iff`).
-/

namespace FileWatch

namespace QueueAction

/-- What the action makes of a list of waiting notifications. -/
def onList (l : List Notification) : QueueAction → List Notification
  | .push n => l ++ [n]
  | .extend batch => l ++ batch
  | .poll => l.tail
  | .clear => []
  | .length | .isEmpty | .clone | .fresh => l

/-- What a list of waiting notifications replies to the action, where the next handle to be made has
the number `next`. -/
def replyOn (l : List Notification) (next : Nat) : QueueAction → QueueReply
  | .push _ | .extend _ | .clear => .nothing
  | .poll => .polled l.head?
  | .length => .counted l.length
  | .isEmpty => .told l.isEmpty
  | .clone | .fresh => .handle next

/-- Whether the action makes a handle. -/
def makesHandle : QueueAction → Bool
  | .clone | .fresh => true
  | .push _ | .extend _ | .poll | .clear | .length | .isEmpty => false

end QueueAction

namespace QueueTable

/-! ### One action -/

/-- The queue at a place. -/
def queueAt (t : QueueTable) (place : Nat) : Queue := t.queues.getD place Queue.empty

/-- Whether every handle names a queue. -/
def IsSound (t : QueueTable) : Prop := ∀ h < t.handles.length, t.placeOf h < t.queues.length

section Action

variable (t : QueueTable) (k : Nat) (a : QueueAction)

/-- The reply to an action is that of the list that waits in the queue. -/
theorem reply_act : (t.act k a).1 = a.replyOn (t.queueOf k).toList t.handles.length := by
  cases a <;> rfl

theorem length_handles_act :
    (t.act k a).2.handles.length = t.handles.length + a.makesHandle.toNat := by
  cases a <;> simp [act, put, QueueAction.makesHandle]

theorem length_queues_act_of_ne_fresh (ha : a ≠ .fresh) :
    (t.act k a).2.queues.length = t.queues.length := by
  cases a with
  | fresh => exact absurd rfl ha
  | _ => simp [act, put]

theorem length_queues_fresh : (t.act k .fresh).2.queues.length = t.queues.length + 1 := by
  simp [act]

/-- A handle goes on to name the same queue. -/
theorem placeOf_act {h : Nat} (hh : h < t.handles.length) :
    (t.act k a).2.placeOf h = t.placeOf h := by
  cases a with
  | clone => exact List.getD_append _ _ _ _ hh
  | fresh => exact List.getD_append _ _ _ _ hh
  | _ => rfl

theorem placeOf_clone : (t.act k .clone).2.placeOf t.handles.length = t.placeOf k := by
  simp [act, placeOf]

theorem placeOf_fresh : (t.act k .fresh).2.placeOf t.handles.length = t.queues.length := by
  simp [act, placeOf]

/-- An action changes the queue that its handle names. -/
theorem toList_queueAt_act_self (hk : t.placeOf k < t.queues.length) :
    ((t.act k a).2.queueAt (t.placeOf k)).toList = a.onList (t.queueOf k).toList := by
  have hput : ∀ q, (t.put k q).queueAt (t.placeOf k) = q := fun q => by
    simp [put, queueAt, List.getElem?_set_self hk]
  cases a with
  | push n => exact congrArg Queue.toList (hput _)
  | extend batch => exact congrArg Queue.toList (hput _)
  | poll => exact congrArg Queue.toList (hput _)
  | clear => exact congrArg Queue.toList (hput _)
  | fresh => exact congrArg Queue.toList (List.getD_append _ _ _ _ hk)
  | _ => rfl

/-- An action leaves every queue alone that its handle does not name. -/
theorem queueAt_act_of_ne {place : Nat} (hplace : place < t.queues.length)
    (hk : t.placeOf k ≠ place) : (t.act k a).2.queueAt place = t.queueAt place := by
  have hput : ∀ q, (t.put k q).queueAt place = t.queueAt place := fun q => by
    simp [put, queueAt, List.getElem?_set_ne hk]
  cases a with
  | push n => exact hput _
  | extend batch => exact hput _
  | poll => exact hput _
  | clear => exact hput _
  | fresh => exact List.getD_append _ _ _ _ hplace
  | _ => rfl

/-- A new queue is empty. -/
theorem queueAt_fresh : (t.act k .fresh).2.queueAt t.queues.length = Queue.empty := by
  simp [act, queueAt]

variable {t k}

theorem IsSound.act (ht : t.IsSound) (hk : k < t.handles.length) : (t.act k a).2.IsSound := by
  intro h hh
  rw [length_handles_act] at hh
  by_cases hold : h < t.handles.length
  · rw [t.placeOf_act k a hold]
    by_cases ha : a = .fresh
    · subst ha
      rw [length_queues_fresh]
      exact Nat.lt_succ_of_lt (ht h hold)
    · rw [t.length_queues_act_of_ne_fresh k a ha]
      exact ht h hold
  · cases a with
    | clone =>
      obtain rfl : h = t.handles.length := by simp [QueueAction.makesHandle] at hh; omega
      rw [placeOf_clone, t.length_queues_act_of_ne_fresh k _ QueueAction.noConfusion]
      exact ht k hk
    | fresh =>
      obtain rfl : h = t.handles.length := by simp [QueueAction.makesHandle] at hh; omega
      rw [placeOf_fresh, length_queues_fresh]
      exact Nat.lt_succ_self _
    | _ => exact absurd hh hold

end Action

/-! ### One action after the other -/

/-- The queues after one action after the other, each through a handle. -/
def after (t : QueueTable) (acts : List (Nat × QueueAction)) : QueueTable :=
  acts.foldl (fun t x => (t.act x.1 x.2).2) t

/-- How many handles there are after some actions, with the one that was there from the start. -/
def handleCount (acts : List (Nat × QueueAction)) : Nat := acts.countP (·.2.makesHandle) + 1

/-- Whether each action goes through a handle that is there at that time. -/
def IsProper (acts : List (Nat × QueueAction)) : Prop :=
  ∀ i, (hi : i < acts.length) → acts[i].1 < handleCount (acts.take i)

instance : DecidablePred IsProper := fun acts =>
  inferInstanceAs (Decidable (∀ i, (hi : i < acts.length) → acts[i].1 < handleCount (acts.take i)))

/-- Whether a handle was made by cloning another. -/
def IsClone (acts : List (Nat × QueueAction)) (h h' : Nat) : Prop :=
  ∃ before later, acts = before ++ (h, .clone) :: later ∧ h' = handleCount before

/-- Whether two handles are connected by clones. -/
def AreConnected (acts : List (Nat × QueueAction)) : Nat → Nat → Prop :=
  Relation.EqvGen (IsClone acts)

variable {acts : List (Nat × QueueAction)} {k h h' : Nat} {a : QueueAction}

@[simp] theorem after_concat (t : QueueTable) (acts : List (Nat × QueueAction)) (k : Nat)
    (a : QueueAction) : t.after (acts ++ [(k, a)]) = ((t.after acts).act k a).2 := by
  simp [after]

@[simp] theorem handleCount_concat (acts : List (Nat × QueueAction)) (k : Nat) (a : QueueAction) :
    handleCount (acts ++ [(k, a)]) = handleCount acts + a.makesHandle.toNat := by
  cases ha : a.makesHandle <;> simp [handleCount, ha]

theorem handleCount_take_le (acts : List (Nat × QueueAction)) (i : Nat) :
    handleCount (acts.take i) ≤ handleCount acts :=
  Nat.succ_le_succ ((List.take_sublist i acts).countP_le)

theorem isProper_concat :
    IsProper (acts ++ [(k, a)]) ↔ IsProper acts ∧ k < handleCount acts := by
  constructor
  · intro hproper
    refine ⟨fun i hi => ?_, ?_⟩
    · have hstep := hproper i (by simp; omega)
      rwa [List.getElem_append_left hi, List.take_append_of_le_length hi.le] at hstep
    · have hlast := hproper acts.length (by simp)
      simpa using hlast
  · rintro ⟨hproper, hk⟩ i hi
    by_cases hold : i < acts.length
    · rw [List.getElem_append_left hold, List.take_append_of_le_length hold.le]
      exact hproper i hold
    · obtain rfl : i = acts.length := by simp at hi; omega
      simpa using hk

/-- Every action of a proper history goes through a handle that is there in the end. -/
theorem IsProper.lt_of_mem (hacts : IsProper acts) {x : Nat × QueueAction} (hx : x ∈ acts) :
    x.1 < handleCount acts := by
  obtain ⟨i, hi, rfl⟩ := List.getElem_of_mem hx
  exact (hacts i hi).trans_le (handleCount_take_le acts i)

theorem length_handles_after (acts : List (Nat × QueueAction)) :
    (single.after acts).handles.length = handleCount acts := by
  induction acts using List.reverseRecOn with
  | nil => rfl
  | append_singleton acts x ih =>
    rw [after_concat, length_handles_act, ih, handleCount_concat]

theorem isSound_after (hacts : IsProper acts) : (single.after acts).IsSound := by
  induction acts using List.reverseRecOn with
  | nil =>
    intro h hh
    obtain rfl : h = 0 := Nat.lt_one_iff.mp hh
    exact Nat.one_pos
  | append_singleton acts x ih =>
    obtain ⟨hbefore, hx⟩ := isProper_concat.mp hacts
    rw [after_concat]
    exact (ih hbefore).act x.2 ((length_handles_after acts).symm ▸ hx)

theorem placeOf_lt (hacts : IsProper acts) (hh : h < handleCount acts) :
    (single.after acts).placeOf h < (single.after acts).queues.length :=
  isSound_after hacts h ((length_handles_after acts).symm ▸ hh)

/-- A handle goes on to name the same queue. -/
theorem placeOf_after_concat (hh : h < handleCount acts) (k : Nat) (a : QueueAction) :
    (single.after (acts ++ [(k, a)])).placeOf h = (single.after acts).placeOf h := by
  rw [after_concat]
  exact placeOf_act _ k a ((length_handles_after acts).symm ▸ hh)

/-! ### Clones name one queue -/

theorem isClone_concat :
    IsClone (acts ++ [(k, a)]) h h' ↔
      IsClone acts h h' ∨ h = k ∧ a = .clone ∧ h' = handleCount acts := by
  constructor
  · rintro ⟨before, later, hsplit, rfl⟩
    rcases List.eq_nil_or_concat later with rfl | ⟨later, last, rfl⟩
    · obtain ⟨rfl, hlast⟩ := List.append_inj' hsplit rfl
      simp only [List.cons.injEq, Prod.mk.injEq, and_true] at hlast
      exact .inr ⟨hlast.1.symm, hlast.2, rfl⟩
    · rw [List.concat_eq_append, ← List.cons_append, ← List.append_assoc] at hsplit
      exact .inl ⟨before, later, (List.append_inj' hsplit rfl).1, rfl⟩
  · rintro (⟨before, later, rfl, rfl⟩ | ⟨rfl, rfl, rfl⟩)
    · exact ⟨before, later ++ [(k, a)], by simp, rfl⟩
    · exact ⟨acts, [], rfl, rfl⟩

theorem IsClone.concat (hclone : IsClone acts h h') (k : Nat) (a : QueueAction) :
    IsClone (acts ++ [(k, a)]) h h' :=
  isClone_concat.mpr (.inl hclone)

/-- A clone is a handle, made from a handle, and names the same queue. -/
theorem placeOf_eq_of_isClone (hacts : IsProper acts) (hclone : IsClone acts h h') :
    h < handleCount acts ∧ h' < handleCount acts
      ∧ (single.after acts).placeOf h = (single.after acts).placeOf h' := by
  induction acts using List.reverseRecOn with
  | nil =>
    obtain ⟨before, later, hsplit, -⟩ := hclone
    exact absurd hsplit.symm (by simp)
  | append_singleton acts x ih =>
    obtain ⟨k, a⟩ := x
    obtain ⟨hbefore, hk⟩ := isProper_concat.mp hacts
    rcases isClone_concat.mp hclone with hold | ⟨rfl, rfl, rfl⟩
    · obtain ⟨hlt, hlt', hplace⟩ := ih hbefore hold
      refine ⟨?_, ?_, ?_⟩
      · rw [handleCount_concat]; omega
      · rw [handleCount_concat]; omega
      · rw [placeOf_after_concat hlt, placeOf_after_concat hlt', hplace]
    · have hnew : (single.after (acts ++ [(h, .clone)])).placeOf (handleCount acts) =
          (single.after acts).placeOf h := by
        rw [after_concat, ← length_handles_after]
        exact placeOf_clone _ h
      refine ⟨?_, ?_, ?_⟩
      · rw [handleCount_concat]; omega
      · rw [handleCount_concat]; simp [QueueAction.makesHandle]
      · rw [placeOf_after_concat hk, hnew]

theorem placeOf_eq_of_areConnected (hacts : IsProper acts) (hconnected : AreConnected acts h h') :
    (single.after acts).placeOf h = (single.after acts).placeOf h' := by
  induction hconnected with
  | rel x y hclone => exact (placeOf_eq_of_isClone hacts hclone).2.2
  | refl x => rfl
  | symm x y _ ih => exact ih.symm
  | trans x y z _ _ ihxy ihyz => exact ihxy.trans ihyz

theorem AreConnected.concat (hconnected : AreConnected acts h h') (k : Nat) (a : QueueAction) :
    AreConnected (acts ++ [(k, a)]) h h' :=
  Relation.EqvGen.mono (fun _ _ hclone => hclone.concat k a) _ _ hconnected

/-- A handle that names the queue of another handle from before was cloned from one of its
handles. -/
theorem areConnected_of_new (hacts : IsProper (acts ++ [(k, a)])) (ha : a.makesHandle = true)
    (ih : ∀ h < handleCount acts, (single.after acts).placeOf h = (single.after acts).placeOf k →
      AreConnected acts h k)
    (hh : h < handleCount acts)
    (hplace : (single.after (acts ++ [(k, a)])).placeOf h =
      (single.after (acts ++ [(k, a)])).placeOf (handleCount acts)) :
    AreConnected (acts ++ [(k, a)]) h (handleCount acts) := by
  obtain ⟨hbefore, hk⟩ := isProper_concat.mp hacts
  rw [placeOf_after_concat hh, after_concat, ← length_handles_after] at hplace
  cases a with
  | clone =>
    rw [placeOf_clone] at hplace
    have hlink : IsClone (acts ++ [(k, .clone)]) k (handleCount acts) :=
      isClone_concat.mpr (.inr ⟨rfl, rfl, rfl⟩)
    exact .trans _ _ _ ((ih h hh hplace).concat k .clone) (.rel _ _ hlink)
  | fresh =>
    rw [placeOf_fresh] at hplace
    exact absurd hplace (placeOf_lt hbefore hh).ne
  | _ => cases ha

/-- Two handles name one queue exactly when clones connect them. -/
theorem placeOf_eq_iff (hacts : IsProper acts) (hh : h < handleCount acts)
    (hh' : h' < handleCount acts) :
    (single.after acts).placeOf h = (single.after acts).placeOf h' ↔ AreConnected acts h h' := by
  refine ⟨fun hplace => ?_, placeOf_eq_of_areConnected hacts⟩
  induction acts using List.reverseRecOn generalizing h h' with
  | nil =>
    obtain rfl : h = 0 := Nat.lt_one_iff.mp hh
    obtain rfl : h' = 0 := Nat.lt_one_iff.mp hh'
    exact .refl 0
  | append_singleton acts x ih =>
    obtain ⟨k, a⟩ := x
    obtain ⟨hbefore, hk⟩ := isProper_concat.mp hacts
    rw [handleCount_concat] at hh hh'
    -- a handle is old, or the one that the last action has made
    have hcases : ∀ i, i < handleCount acts + a.makesHandle.toNat →
        i < handleCount acts ∨ i = handleCount acts ∧ a.makesHandle = true := by
      intro i hi
      cases ha : a.makesHandle with
      | false => rw [ha] at hi; exact .inl hi
      | true =>
        rw [ha, Bool.toNat_true] at hi
        rcases Nat.lt_succ_iff_lt_or_eq.mp hi with hlt | heq
        · exact .inl hlt
        · exact .inr ⟨heq, rfl⟩
    have hnew : ∀ i < handleCount acts,
        (single.after acts).placeOf i = (single.after acts).placeOf k → AreConnected acts i k :=
      fun i hi hsame => ih hbefore hi hk hsame
    rcases hcases h hh with hold | ⟨rfl, ha⟩ <;> rcases hcases h' hh' with hold' | ⟨rfl, ha'⟩
    · rw [placeOf_after_concat hold, placeOf_after_concat hold'] at hplace
      exact (ih hbefore hold hold' hplace).concat k a
    · exact areConnected_of_new hacts ha' hnew hold hplace
    · exact .symm _ _ (areConnected_of_new hacts ha hnew hold' hplace.symm)
    · exact .refl _

end QueueTable

end FileWatch

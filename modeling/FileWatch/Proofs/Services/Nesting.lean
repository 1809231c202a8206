import FileWatch.Services
import Mathlib.Data.List.ReduceOption

/-! # Nesting — overrides that end in any order

The overrides that are `alive` are in force in the order of installation as long as each that ends
`isExchangeable`: whatever was installed between it and the last living override of its services is
of the same services. Otherwise the entry that goes is not its own, and the order of the others is
lost (`active_eq_alive_iff`). Which services are in force, and how often, is right in any case
(`active_perm_alive`).
-/

namespace FileWatch.Overrides

/-! ### Removing the last occurrence -/

theorem removeLast_cons_of_mem {k : Nat} {l : List Nat} (h : k ∈ l) (x : Nat) :
    removeLast k (x :: l) = x :: removeLast k l := by
  rw [removeLast, List.reverse_cons, List.erase_append_left _ (List.mem_reverse.mpr h),
    List.reverse_append]
  rfl

theorem removeLast_append_of_mem {k : Nat} {l : List Nat} (h : k ∈ l) (l' : List Nat) :
    removeLast k (l' ++ l) = l' ++ removeLast k l := by
  induction l' with
  | nil => rfl
  | cons x l' ih =>
    rw [List.cons_append, removeLast_cons_of_mem (List.mem_append_right l' h), ih]
    rfl

theorem removeLast_cons_self {k : Nat} {l : List Nat} (h : k ∉ l) : removeLast k (k :: l) = l := by
  have hreverse : k ∉ l.reverse := fun hmem => h (List.mem_reverse.mp hmem)
  rw [removeLast, List.reverse_cons, List.erase_append_right _ hreverse]
  simp

theorem removeLast_perm (k : Nat) (l : List Nat) : (removeLast k l).Perm (l.erase k) :=
  (List.reverse_perm _).trans ((List.reverse_perm l).erase k)

/-- Removing the last occurrence comes to removing the first element when nothing else stands
between the two. -/
theorem removeLast_cons_eq_iff {k : Nat} {l : List Nat} :
    removeLast k (k :: l) = l ↔ k ∉ l.dropWhile (· == k) := by
  induction l with
  | nil => simp [removeLast]
  | cons x l ih =>
    by_cases hx : x = k
    · subst hx
      rw [removeLast_cons_of_mem (List.mem_cons_self ..), List.cons_inj_right, ih]
      simp
    · rw [List.dropWhile_cons_of_neg (by simpa using hx)]
      constructor
      · intro heq hmem
        rw [removeLast_cons_of_mem hmem] at heq
        exact hx (List.cons_eq_cons.mp heq).1.symm
      · exact removeLast_cons_self

/-! ### The living overrides -/

/-- A change of the overrides. -/
inductive Change where
  | install (services : Nat)
  /-- The override with this number ends. -/
  | finish (n : Nat)
  deriving DecidableEq, Repr

/-- The overrides after a change. -/
def change (o : Overrides) : Change → Overrides
  | .install services => o.install services
  | .finish n => o.finish n

/-- The overrides after one change after the other. -/
def after (o : Overrides) (changes : List Change) : Overrides := changes.foldl change o

/-- What the override with the given number installed, unless it has ended. -/
def living? (o : Overrides) (n : Nat) : Option Nat := o.installed[n]?.join

/-- What the living overrides installed, in the order of installation. -/
def alive (o : Overrides) : List Nat := o.installed.reduceOption

/-- What the living overrides before the one with the given number installed. -/
def aliveBefore (o : Overrides) (n : Nat) : List Nat := (o.installed.take n).reduceOption

/-- What the living overrides after the one with the given number installed. -/
def aliveAfter (o : Overrides) (n : Nat) : List Nat := (o.installed.drop (n + 1)).reduceOption

/-- Whether no override of other services stands between the one with the given number, if it lives,
and the last living one of its services. -/
def isExchangeable (o : Overrides) (n : Nat) : Bool :=
  match o.living? n with
  | some k => !((o.aliveAfter n).dropWhile (· == k)).contains k
  | Option.none => true

/-- Whether every override that ends among these changes is exchangeable at that time. -/
def endsExchangeable (o : Overrides) : List Change → Bool
  | [] => true
  | .install k :: cs => (o.install k).endsExchangeable cs
  | .finish n :: cs => o.isExchangeable n && (o.finish n).endsExchangeable cs

variable {o : Overrides} {n k : Nat}

@[simp] theorem alive_install (o : Overrides) (k : Nat) : (o.install k).alive = o.alive ++ [k] := by
  simp [alive, install, List.reduceOption_append]

theorem finish_of_ended (h : o.living? n = Option.none) : o.finish n = o := by
  rw [living?] at h
  rw [finish, h]

theorem finish_of_living (h : o.living? n = some k) :
    o.finish n = ⟨removeLast k o.active, o.installed.set n Option.none⟩ := by
  rw [living?] at h
  rw [finish, h]

theorem alive_eq_of_living (h : o.living? n = some k) :
    o.alive = o.aliveBefore n ++ k :: o.aliveAfter n := by
  have hentry : o.installed[n]? = some (some k) := Option.join_eq_some_iff.mp h
  obtain ⟨hn, hget⟩ := List.getElem?_eq_some_iff.mp hentry
  have hsplit : o.installed.take n ++ some k :: o.installed.drop (n + 1) = o.installed := by
    rw [← hget, ← List.drop_eq_getElem_cons hn, List.take_append_drop]
  rw [alive, ← hsplit, List.reduceOption_append, List.reduceOption_cons_of_some]
  rfl

/-- Of the living overrides, the one that ends is gone and the others are as they were. -/
theorem alive_finish (h : o.living? n = some k) :
    (o.finish n).alive = o.aliveBefore n ++ o.aliveAfter n := by
  have hentry : o.installed[n]? = some (some k) := Option.join_eq_some_iff.mp h
  obtain ⟨hn, -⟩ := List.getElem?_eq_some_iff.mp hentry
  rw [finish_of_living h, alive, List.set_eq_take_append_cons_drop, if_pos hn,
    List.reduceOption_append, List.reduceOption_cons_of_none]
  rfl

/-! ### What is in force -/

theorem active_perm_alive_change (ho : o.active.Perm o.alive) (c : Change) :
    (o.change c).active.Perm (o.change c).alive := by
  cases c with
  | install k =>
    show (o.active ++ [k]).Perm (o.install k).alive
    rw [alive_install]
    exact ho.append_right [k]
  | finish n =>
    show (o.finish n).active.Perm (o.finish n).alive
    cases hn : o.living? n with
    | none => rwa [finish_of_ended hn]
    | some k =>
      have hactive : (removeLast k o.active).Perm (o.alive.erase k) :=
        (removeLast_perm k o.active).trans (ho.erase k)
      have halive : (o.alive.erase k).Perm (o.aliveBefore n ++ o.aliveAfter n) := by
        rw [alive_eq_of_living hn, ← List.erase_cons_head k (o.aliveBefore n ++ o.aliveAfter n)]
        exact List.perm_middle.erase k
      rw [alive_finish hn, finish_of_living hn]
      exact hactive.trans halive

/-- Ended overrides are not in force, and every living one is, though perhaps not in its place. -/
theorem active_perm_alive (ho : o.active.Perm o.alive) (changes : List Change) :
    (o.after changes).active.Perm (o.after changes).alive := by
  induction changes generalizing o with
  | nil => exact ho
  | cons c cs ih => exact ih (active_perm_alive_change ho c)

/-- An override that ends takes its own entry with it when it is exchangeable, and else another. -/
theorem active_finish_iff (ho : o.active = o.alive) (n : Nat) :
    (o.finish n).active = (o.finish n).alive ↔ o.isExchangeable n = true := by
  unfold isExchangeable
  cases hn : o.living? n with
  | none => simp [finish_of_ended hn, ho]
  | some k =>
    rw [alive_finish hn, finish_of_living hn, ho, alive_eq_of_living hn,
      removeLast_append_of_mem (List.mem_cons_self ..), List.append_cancel_left_eq,
      removeLast_cons_eq_iff]
    simp

theorem active_install (ho : o.active = o.alive) (k : Nat) :
    (o.install k).active = (o.install k).alive := by
  rw [alive_install, ← ho]
  rfl

/-- What is in force is what is alive, in this order and all the time, exactly when every override
is exchangeable as it ends. -/
theorem active_eq_alive_iff (ho : o.active = o.alive) (changes : List Change) :
    (∀ m, (o.after (changes.take m)).active = (o.after (changes.take m)).alive) ↔
      o.endsExchangeable changes = true := by
  induction changes generalizing o with
  | nil => simp [after, endsExchangeable, ho]
  | cons c cs ih =>
    have hcons : (∀ m, (o.after ((c :: cs).take m)).active = (o.after ((c :: cs).take m)).alive) ↔
        ∀ m, ((o.change c).after (cs.take m)).active = ((o.change c).after (cs.take m)).alive := by
      constructor
      · exact fun h m => h (m + 1)
      · intro h m
        cases m with
        | zero => exact ho
        | succ m => exact h m
    rw [hcons]
    cases c with
    | install k => exact ih (active_install ho k)
    | finish n =>
      rw [endsExchangeable, Bool.and_eq_true, ← active_finish_iff ho n]
      constructor
      · intro h
        have hfirst : (o.finish n).active = (o.finish n).alive := h 0
        exact ⟨hfirst, (ih hfirst).mp h⟩
      · rintro ⟨hfirst, hrest⟩
        exact (ih hfirst).mpr hrest

/-- Where no services are installed by two living overrides, each override is exchangeable. -/
theorem isExchangeable_of_nodup (h : o.alive.Nodup) (n : Nat) : o.isExchangeable n = true := by
  unfold isExchangeable
  cases hn : o.living? n with
  | none => rfl
  | some k =>
    rw [alive_eq_of_living hn] at h
    have hk : k ∉ o.aliveAfter n := (List.nodup_cons.mp (List.nodup_append.mp h).2.1).1
    have hdrop : k ∉ (o.aliveAfter n).dropWhile (· == k) := fun hmem =>
      hk ((List.dropWhile_suffix _).subset hmem)
    simpa using hdrop

/-- Where no two living overrides ever have the same services, every history does well. -/
theorem endsExchangeable_of_nodup {changes : List Change}
    (h : ∀ m, (o.after (changes.take m)).alive.Nodup) : o.endsExchangeable changes = true := by
  induction changes generalizing o with
  | nil => rfl
  | cons c cs ih =>
    have hrest : (o.change c).endsExchangeable cs = true := ih fun m => h (m + 1)
    cases c with
    | install k => exact hrest
    | finish n =>
      rw [endsExchangeable, Bool.and_eq_true]
      exact ⟨isExchangeable_of_nodup (h 0) n, hrest⟩

theorem services_eq_getLast? {l : List Nat} (h : o.active = l) (all : List Services) :
    o.services all = ((l.getLast?.bind fun k => all[k]?).getD Services.native) := by
  rw [services, innermost?, h]

/-- **The innermost living override wins** if every override was exchangeable as it ended. Without
this condition too the services in force are those of a living override, and those of the system
when none is alive. An override that ends with the living ones in force leaves the others in force
in their order when it is exchangeable, and only then. -/
theorem innermost_alive_in_force (changes : List Change) (all : List Services) :
    let o := none.after changes
    (none.endsExchangeable changes = true →
        o.services all = ((o.alive.getLast?.bind fun k => all[k]?).getD Services.native)
          ∧ ∀ n k, o.living? n = some k →
            o.alive = o.aliveBefore n ++ k :: o.aliveAfter n
              ∧ ((o.finish n).active = o.aliveBefore n ++ o.aliveAfter n ↔
                  o.isExchangeable n = true))
      ∧ (o.alive = [] → o.services all = Services.native)
      ∧ (o.alive ≠ [] → ∃ k ∈ o.alive, o.services all = (all[k]?).getD Services.native) := by
  intro o
  have hperm : o.active.Perm o.alive := active_perm_alive (o := none) (.refl []) changes
  refine ⟨fun hends => ?_, fun halive => ?_, fun halive => ?_⟩
  · have hactive : o.active = o.alive := by
      have hall := (active_eq_alive_iff (o := none) rfl changes).mpr hends changes.length
      rwa [List.take_length] at hall
    refine ⟨services_eq_getLast? hactive all, fun n k hn => ⟨alive_eq_of_living hn, ?_⟩⟩
    rw [← alive_finish hn]
    exact active_finish_iff hactive n
  · rw [halive] at hperm
    exact services_eq_getLast? hperm.eq_nil all
  · have hactive : o.active ≠ [] := fun hnil => halive (hnil ▸ hperm).nil_eq.symm
    refine ⟨o.active.getLast hactive, hperm.subset (List.getLast_mem hactive), ?_⟩
    rw [services_eq_getLast? rfl all, List.getLast?_eq_some_getLast hactive]
    rfl

/-- Of two overrides of the same services side by side the first ends, and the second wins. -/
theorem innermost_alive_in_force_of_twins :
    let changes : List Change :=
      [.install 0, .install 1, .install 1, .install 0, .finish 3, .finish 1]
    let all : List Services := [⟨"outer", .stub⟩, ⟨"inner", .unix⟩]
    none.endsExchangeable changes = true
      ∧ (none.after changes).services all = ⟨"inner", .unix⟩ := by
  intro changes all
  have hends : none.endsExchangeable changes = true := by decide
  exact ⟨hends, ((innermost_alive_in_force changes all).1 hends).1.trans (by decide)⟩

/-- The innermost living override does not win in every history: the first override ends, and the
third one, of the same services, loses its place to the second. -/
theorem innermost_alive_displaced :
    ¬ ∀ (changes : List Change) (all : List Services),
        (none.after changes).services all =
          (((none.after changes).alive.getLast?.bind fun k => all[k]?).getD Services.native) := by
  intro h
  have hwrong := h [.install 0, .install 1, .install 0, .finish 0]
    [⟨"outer", .stub⟩, ⟨"inner", .unix⟩]
  exact absurd hwrong (by decide)

end FileWatch.Overrides

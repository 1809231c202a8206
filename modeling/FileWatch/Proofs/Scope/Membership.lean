import FileWatch.Proofs.Path.Components
import FileWatch.Scope

/-! # Membership — a scope goes by components

Whether a path is in a scope depends on the components of the root and of the path alone
(`contains_iff`): the path starts with those of the root, and in a flat scope one more may follow.
So the root is in its scope and so are its entries, what lies deeper is in the recursive one alone,
and a sibling of the root is in neither, however its name starts. No respelling of the root or of
the path matters.
-/

namespace FileWatch

namespace Scope

/-- A path is in a scope when it starts with the components of the root and, in a flat scope, goes
on with at most one. -/
theorem contains_iff (s : Scope) (p : Path) :
    s.contains p = true ↔
      s.root.components <+: p.components
        ∧ (s.recursive = true ∨ p.components.length ≤ s.root.components.length + 1) := by
  unfold contains
  by_cases hsame : p.same s.root = true
  · have heq : p.components = s.root.components := beq_iff_eq.mp hsame
    rw [if_pos hsame, heq]
    exact iff_of_true rfl ⟨List.prefix_rfl, .inr (Nat.le_succ _)⟩
  · rw [if_neg hsame, Path.below?]
    by_cases hstarts : s.root.components <+: p.components
    · obtain ⟨rest, hrest⟩ := hstarts
      have hspelled : (Path.ofComponents rest).components = rest := by
        have hdrop := (Path.isSpelling_components p).drop s.root.components.length
        rw [← hrest, List.drop_left] at hdrop
        exact hdrop.components_ofComponents
      -- the root itself is another case
      have hne : rest ≠ [] := by
        rintro rfl
        rw [List.append_nil] at hrest
        exact hsame (beq_iff_eq.mpr hrest.symm)
      have hpos := List.length_pos_iff.mpr hne
      rw [if_pos (List.isPrefixOf_iff_prefix.mpr ⟨rest, hrest⟩), ← hrest, List.drop_left]
      simp only [hspelled, List.length_append, Bool.or_eq_true, beq_iff_eq]
      constructor
      · rintro (hrecursive | hone)
        · exact ⟨List.prefix_append _ _, .inl hrecursive⟩
        · exact ⟨List.prefix_append _ _, .inr (by omega)⟩
      · rintro ⟨-, hrecursive | hshort⟩
        · exact .inl hrecursive
        · exact .inr (by omega)
    · rw [if_neg (fun h => hstarts (List.isPrefixOf_iff_prefix.mp h))]
      exact iff_of_false Bool.false_ne_true fun h => hstarts h.1

/-- What is below the root is in a recursive scope, and in a flat one if it is an entry of the
root. -/
theorem contains_below {s : Scope} {p : Path} {rest : List Component}
    (h : p.components = s.root.components ++ rest) :
    s.contains p = true ↔ s.recursive = true ∨ rest.length ≤ 1 := by
  rw [contains_iff, h, List.length_append, Nat.add_le_add_iff_left]
  exact and_iff_right (List.prefix_append _ _)

/-- Only the components of the root and of the path matter. -/
theorem contains_congr {r r' p p' : Path} (hr : r'.components = r.components)
    (hp : p'.components = p.components) (recursive : Bool) :
    Scope.contains ⟨r', recursive⟩ p' = Scope.contains ⟨r, recursive⟩ p := by
  rw [Bool.eq_iff_iff, contains_iff, contains_iff, hr, hp]

/-- A path that goes on with another name where the last name of the root stands is no path of the
scope. -/
theorem contains_of_other_name {r p : Path} {above rest : List Component} {n m : Name}
    (hr : r.components = above ++ [.name n]) (hp : p.components = above ++ .name m :: rest)
    (hne : n ≠ m) (recursive : Bool) : Scope.contains ⟨r, recursive⟩ p = false := by
  rw [Bool.eq_false_iff, ne_eq, contains_iff, hr, hp]
  rintro ⟨hstarts, -⟩
  rw [List.prefix_append_right_inj, List.cons_prefix_cons] at hstarts
  exact hne (Component.name.inj hstarts.1)

/-- **Membership in a scope goes by components.** A path is in a scope exactly if the components of
the root begin its own and, in a flat scope, at most one follows. For a root that is not empty, this
says at the level of bytes: the root is in its scopes and so is each entry of it; what lies below an
entry is in the recursive scope only; what lies beside the root under a name that only starts like
its last one, and all below, is in neither. And neither the root nor the path can be respelled so
that this changes: with a separator doubled, a separator put at the end, or `/.` put in where a
component ends. -/
theorem contains_by_components :
    (∀ (s : Scope) (p : Path),
      s.contains p = true ↔
        s.root.components <+: p.components
          ∧ (s.recursive = true ∨ p.components.length ≤ s.root.components.length + 1))
      ∧ (∀ r : Path, r.bytes ≠ [] →
        (∀ recursive, Scope.contains ⟨r, recursive⟩ r = true)
          ∧ (∀ n, IsPlainName n →
              ∀ recursive, Scope.contains ⟨r, recursive⟩ (r.under n) = true)
          ∧ ∀ n₁ n₂ rest, IsPlainName n₁ → IsPlainName n₂ →
              (rest = [] ∨ rest.head? = some Path.slash) →
              Scope.contains ⟨r, true⟩ ((r.under n₁).under (n₂ ++ rest)) = true
                ∧ Scope.contains ⟨r, false⟩ ((r.under n₁).under (n₂ ++ rest)) = false)
      ∧ (∀ above n more rest, (above = [] ∨ above.getLast? = some Path.slash) → IsPlainName n →
          more ≠ [] → Path.slash ∉ more → (rest = [] ∨ rest.head? = some Path.slash) →
          ∀ recursive,
            Scope.contains ⟨⟨above ++ n⟩, recursive⟩ ⟨above ++ (n ++ more ++ rest)⟩ = false)
      ∧ ∀ p q : Path, Path.Respelled p q →
          (∀ s : Scope, s.contains q = s.contains p)
            ∧ ∀ recursive p',
              Scope.contains ⟨q, recursive⟩ p' = Scope.contains ⟨p, recursive⟩ p' := by
  refine ⟨contains_iff, fun r hr => ⟨fun recursive => ?_, fun n hn recursive => ?_,
    fun n₁ n₂ rest hn₁ hn₂ hrest => ?_⟩,
    fun above n more rest habove hn hmore hslash hrest recursive => ?_,
    fun p q hpq => ⟨fun s => ?_, fun recursive p' => ?_⟩⟩
  · exact (contains_below (List.append_nil _).symm).mpr (.inr (Nat.zero_le 1))
  · have hbelow := Path.components_under hr n
    rw [Path.namesIn_of_plain hn] at hbelow
    exact (contains_below (s := ⟨r, recursive⟩) hbelow).mpr (.inr (Nat.le_refl 1))
  · have hbelow : ((r.under n₁).under (n₂ ++ rest)).components =
        r.components ++ .name n₁ :: .name n₂ :: Path.namesIn rest := by
      rw [Path.components_under (r.bytes_under_ne_nil n₁), Path.components_under hr,
        Path.namesIn_of_plain hn₁, Path.namesIn_append hn₂ hrest, List.append_assoc]
      rfl
    constructor
    · exact (contains_below hbelow).mpr (.inl rfl)
    · rw [Bool.eq_false_iff, ne_eq, contains_below hbelow]
      simp
  · have hroot : (⟨above ++ n⟩ : Path).components = (⟨above⟩ : Path).components ++ [.name n] := by
      have hparts := Path.components_before habove hn (.inl rfl)
      rwa [List.append_nil] at hparts
    have hbeside := Path.components_before habove (hn.append hslash) hrest
    refine contains_of_other_name hroot hbeside (fun hsame => hmore ?_) recursive
    exact List.append_right_eq_self.mp hsame.symm
  · exact contains_congr rfl hpq.components_eq s.recursive
  · exact contains_congr hpq.components_eq rfl recursive

/-- The scopes of `/w`: a name that is no text is an entry, also behind `/.`; `/w/a/..` lies deeper;
`/wx/a` is beside. -/
theorem contains_by_components_of_odd_names :
    let root : Path := ⟨[0x2F, 0x77]⟩
    let odd : Path := ⟨[0x2F, 0x77, 0x2F, 0x2E, 0x2F, 0xFF]⟩
    let deep : Path := ⟨[0x2F, 0x77, 0x2F, 0x61, 0x2F, 0x2E, 0x2E]⟩
    let beside : Path := ⟨[0x2F, 0x77, 0x78, 0x2F, 0x61]⟩
    (∀ recursive, Scope.contains ⟨root, recursive⟩ root = true)
      ∧ (∀ recursive, Scope.contains ⟨root, recursive⟩ odd = true)
      ∧ (Scope.contains ⟨root, true⟩ deep = true ∧ Scope.contains ⟨root, false⟩ deep = false)
      ∧ ∀ recursive, Scope.contains ⟨root, recursive⟩ beside = false := by
  intro root odd deep beside
  obtain ⟨-, hbelow, hbeside, hrespelled⟩ := contains_by_components
  obtain ⟨hroot, hentry, hdeep⟩ := hbelow root (by decide)
  have hodd : Path.Respelled (root.under [0xFF]) odd :=
    .dotted [0x2F, 0x77] [0x2F, 0xFF] (by decide) (.inr rfl)
  refine ⟨hroot, fun recursive => ?_, ?_, fun recursive => ?_⟩
  · rw [(hrespelled _ _ hodd).1 ⟨root, recursive⟩]
    exact hentry [0xFF] ⟨by decide, by decide⟩ recursive
  · exact hdeep [0x61] [0x2E, 0x2E] [] ⟨by decide, by decide⟩ ⟨by decide, by decide⟩ (.inl rfl)
  · exact hbeside [0x2F] [0x77] [0x78] [0x2F, 0x61] (.inr rfl) ⟨by decide, by decide⟩ (by decide)
      (by decide) (.inr rfl) recursive

end Scope

end FileWatch

import Mathlib.Data.List.Basic

/-! # Splitting — texts and their pieces

What a text is split into has the characters of the text but for the separators, and what pieces are
joined to has theirs and those of the joints. Where a text is split depends on its characters one by
one, so characters can be changed before or after.
-/

namespace FileWatch

variable {α : Type} {p q : α → Bool}

theorem mem_of_mem_splitOn [BEq α] [LawfulBEq α] {sep c : α} {s piece : List α}
    (hpiece : piece ∈ s.splitOn sep) (hc : c ∈ piece) : c ∈ s ∧ c ≠ sep := by
  induction s generalizing piece with
  | nil =>
    rw [List.splitOn_nil, List.mem_singleton] at hpiece
    rw [hpiece] at hc
    cases hc
  | cons d s ih =>
    rw [List.splitOn_cons_eq_if_modifyHead] at hpiece
    by_cases hd : d = sep
    · rw [if_pos (by simp [hd]), List.mem_cons] at hpiece
      rcases hpiece with rfl | hpiece
      · cases hc
      · exact (ih hpiece hc).imp_left (List.mem_cons_of_mem d)
    · rw [if_neg (by simp [hd])] at hpiece
      obtain ⟨first, others, hsplit⟩ := List.exists_cons_of_ne_nil (List.splitOn_ne_nil sep s)
      rw [hsplit, List.modifyHead_cons, List.mem_cons] at hpiece
      rcases hpiece with rfl | hpiece
      · rcases List.mem_cons.mp hc with rfl | hc
        · exact ⟨List.mem_cons_self .., hd⟩
        · exact (ih (by simp [hsplit]) hc).imp_left (List.mem_cons_of_mem d)
      · exact (ih (by simp [hsplit, hpiece]) hc).imp_left (List.mem_cons_of_mem d)

theorem mem_of_mem_intercalate {joint : List α} {pieces : List (List α)} {c : α}
    (h : c ∈ joint.intercalate pieces) : c ∈ joint ∨ ∃ piece ∈ pieces, c ∈ piece := by
  induction pieces with
  | nil => cases h
  | cons first rest ih =>
    cases rest with
    | nil => exact .inr ⟨first, List.mem_cons_self .., by simpa using h⟩
    | cons second rest =>
      rw [List.intercalate_cons_cons] at h
      rcases List.mem_append.mp h with h | h
      · rcases List.mem_append.mp h with h | h
        · exact .inr ⟨first, List.mem_cons_self .., h⟩
        · exact .inl h
      · rcases ih h with h | ⟨w, hw, h⟩
        · exact .inl h
        · exact .inr ⟨w, List.mem_cons_of_mem _ hw, h⟩

theorem splitOnP_map {f : α → α} (hf : ∀ c, p (f c) = p c) (s : List α) :
    (s.map f).splitOnP p = (s.splitOnP p).map (List.map f) := by
  induction s with
  | nil => rfl
  | cons c s ih =>
    rw [List.map_cons, List.splitOnP_cons_eq_if_modifyHead, List.splitOnP_cons_eq_if_modifyHead, hf,
      ih]
    obtain ⟨first, rest, hsplit⟩ := List.exists_cons_of_ne_nil (List.splitOnP_ne_nil p s)
    split
    · rfl
    · rw [hsplit]
      rfl

theorem splitOnP_congr {s : List α} (h : ∀ c ∈ s, p c = q c) : s.splitOnP p = s.splitOnP q := by
  induction s with
  | nil => rfl
  | cons c s ih =>
    obtain ⟨hc, hs⟩ := List.forall_mem_cons.mp h
    rw [List.splitOnP_cons_eq_if_modifyHead, List.splitOnP_cons_eq_if_modifyHead, hc, ih hs]

end FileWatch

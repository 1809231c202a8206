import FileWatch.Path
import FileWatch.Proofs.Text.Splitting

/-! # Components — what the bytes of a path come to

The components of a path are found from left to right: behind a separator only the names count
(`components_behind`), and so do names that follow a separator (`components_before`). Hence a path
can be respelled without harm: separators doubled or put at its end, and `/.` put in where a
component ends (`Respelled.components_eq`).

Components can be spelled out again, and what is spelled has just these components, also where some
were left out from the front (`IsSpelling.components_ofComponents`).
-/

namespace FileWatch

/-- Whether a name counts as one wherever it stands between separators. -/
structure IsPlainName (n : Name) : Prop where
  is_name : Path.isName n = true
  no_slash : Path.slash ∉ n

theorem isPlainName_iff {n : Name} :
    IsPlainName n ↔ n ≠ [] ∧ Path.slash ∉ n ∧ n ≠ Path.dot := by
  constructor
  · rintro ⟨hname, hslash⟩
    obtain ⟨hne, hdot⟩ : n ≠ [] ∧ n ≠ Path.dot := by simpa [Path.isName] using hname
    exact ⟨hne, hslash, hdot⟩
  · rintro ⟨hne, hslash, hdot⟩
    exact ⟨by simp [Path.isName, hne, hdot], hslash⟩

/-- A longer name with the same beginning. -/
theorem IsPlainName.append {n s : Name} (hn : IsPlainName n) (hs : Path.slash ∉ s) :
    IsPlainName (n ++ s) := by
  obtain ⟨hne, hslash, hdot⟩ := isPlainName_iff.mp hn
  refine isPlainName_iff.mpr ⟨?_, ?_, ?_⟩
  · exact List.append_ne_nil_of_left_ne_nil hne s
  · rw [List.mem_append]
    exact fun h => h.elim hslash hs
  · intro hsame
    -- what is left of `.` is `.` or nothing
    rcases List.append_eq_singleton_iff.mp hsame with ⟨hnil, -⟩ | ⟨hdot', -⟩
    · exact hne hnil
    · exact hdot hdot'

namespace Path

/-! ### Names between separators -/

/-- The names between the separators of some bytes. -/
def namesIn (bytes : List UInt8) : List Component :=
  ((bytes.splitOn slash).filter isName).map Component.name

@[simp] theorem namesIn_nil : namesIn [] = [] := rfl

theorem namesIn_append_slash (a b : List UInt8) :
    namesIn (a ++ slash :: b) = namesIn a ++ namesIn b := by
  rw [namesIn, List.splitOn_append_cons_self, List.filter_append, List.map_append]
  rfl

@[simp] theorem namesIn_slash (b : List UInt8) : namesIn (slash :: b) = namesIn b :=
  namesIn_append_slash [] b

theorem namesIn_of_plain {n : Name} (h : IsPlainName n) : namesIn n = [.name n] := by
  rw [namesIn, List.splitOn_eq_singleton h.no_slash, List.filter_cons_of_pos h.is_name]
  rfl

/-- A name is found before what does not go on with it. -/
theorem namesIn_append {n t : List UInt8} (hn : IsPlainName n)
    (ht : t = [] ∨ t.head? = some slash) : namesIn (n ++ t) = .name n :: namesIn t := by
  rcases ht with rfl | ht
  · rw [List.append_nil, namesIn_of_plain hn, namesIn_nil]
  · obtain ⟨t', rfl⟩ := List.head?_eq_some_iff.mp ht
    rw [namesIn_append_slash, namesIn_of_plain hn, namesIn_slash]
    rfl

/-- Names that are spelled with separators between them are found again. -/
theorem namesIn_intercalate {ns : List Name} (h : ∀ n ∈ ns, IsPlainName n) :
    namesIn ([slash].intercalate ns) = ns.map .name := by
  cases ns with
  | nil => rfl
  | cons n rest =>
    have hsplit : ([slash].intercalate (n :: rest)).splitOn slash = n :: rest :=
      List.splitOn_intercalate slash (fun m hm => (h m hm).no_slash) (List.cons_ne_nil n rest)
    rw [namesIn, hsplit, List.filter_eq_self.mpr fun m hm => (h m hm).is_name]

/-! ### Components from left to right -/

/-- What counts before the names. -/
def lead (p : Path) : List Component :=
  if p.isAbsolute then [.root]
  else if p.pieces.head? == some dot then [.here]
  else []

theorem components_eq (p : Path) : p.components = p.lead ++ namesIn p.bytes := by
  rw [components, lead]
  by_cases habsolute : p.isAbsolute = true
  · rw [if_pos habsolute, if_pos habsolute]
    rfl
  · rw [if_neg habsolute, if_neg habsolute]
    by_cases hfirst : (p.pieces.head? == some dot) = true
    · rw [if_pos hfirst, if_pos hfirst]
      rfl
    · rw [if_neg hfirst, if_neg hfirst]
      rfl

theorem components_slash (b : List UInt8) : components ⟨slash :: b⟩ = .root :: namesIn b := by
  rw [components_eq, namesIn_slash]
  rfl

/-- Behind a separator only names count. -/
theorem components_behind {a : List UInt8} (ha : a ≠ []) (b : List UInt8) :
    components ⟨a ++ slash :: b⟩ = components ⟨a⟩ ++ namesIn b := by
  have habsolute : isAbsolute ⟨a ++ slash :: b⟩ = isAbsolute ⟨a⟩ := by
    rw [isAbsolute, isAbsolute, List.head?_append_of_ne_nil a ha]
  have hfirst : (pieces ⟨a ++ slash :: b⟩).head? = (pieces ⟨a⟩).head? := by
    rw [pieces, pieces, List.splitOn_append_cons_self,
      List.head?_append_of_ne_nil _ (List.splitOn_ne_nil slash a)]
  have hlead : lead ⟨a ++ slash :: b⟩ = lead ⟨a⟩ := by
    rw [lead, lead, habsolute, hfirst]
  rw [components_eq, components_eq, hlead, namesIn_append_slash, List.append_assoc]

/-- What some bytes spell below a path. -/
def under (r : Path) (bytes : List UInt8) : Path := ⟨r.bytes ++ slash :: bytes⟩

theorem bytes_under_ne_nil (r : Path) (bytes : List UInt8) : (r.under bytes).bytes ≠ [] :=
  List.append_ne_nil_of_right_ne_nil r.bytes (List.cons_ne_nil slash bytes)

theorem components_under {r : Path} (hr : r.bytes ≠ []) (bytes : List UInt8) :
    (r.under bytes).components = r.components ++ namesIn bytes :=
  components_behind hr bytes

theorem components_of_plain {n : Name} (h : IsPlainName n) : components ⟨n⟩ = [.name n] := by
  obtain ⟨-, hslash, hdot⟩ := isPlainName_iff.mp h
  have hrelative : ¬isAbsolute ⟨n⟩ = true := by
    intro habsolute
    exact hslash (List.mem_of_head? (beq_iff_eq.mp habsolute))
  have hfirst : ¬((pieces ⟨n⟩).head? == some dot) = true := by
    rw [pieces, List.splitOn_eq_singleton hslash, List.head?_cons, beq_iff_eq, Option.some_inj]
    exact hdot
  rw [components_eq, lead, if_neg hrelative, if_neg hfirst, namesIn_of_plain h]
  rfl

/-- A name counts after the components that stand before it. -/
theorem components_before {b n t : List UInt8} (hb : b = [] ∨ b.getLast? = some slash)
    (hn : IsPlainName n) (ht : t = [] ∨ t.head? = some slash) :
    components ⟨b ++ (n ++ t)⟩ = components ⟨b⟩ ++ .name n :: namesIn t := by
  rw [← namesIn_append hn ht]
  rcases hb with rfl | hb
  · -- nothing is before it, so the path starts with a name
    rw [List.nil_append]
    rcases ht with rfl | ht
    · rw [List.append_nil, components_of_plain hn, namesIn_of_plain hn]
      rfl
    · obtain ⟨t', rfl⟩ := List.head?_eq_some_iff.mp ht
      rw [components_behind (isPlainName_iff.mp hn).1, components_of_plain hn,
        namesIn_append_slash, namesIn_of_plain hn]
      rfl
  · obtain ⟨b', rfl⟩ := List.getLast?_eq_some_iff.mp hb
    rw [List.append_assoc, List.singleton_append]
    rcases eq_or_ne b' [] with rfl | hne
    · rw [List.nil_append, List.nil_append, components_slash, components_slash]
      rfl
    · rw [components_behind hne, components_behind hne, namesIn_nil, List.append_nil]

/-! ### Respelling -/

/-- A path is spelled in another way that changes none of its components. -/
inductive Respelled : Path → Path → Prop
  /-- A separator is doubled. -/
  | doubled (a b : List UInt8) : Respelled ⟨a ++ slash :: b⟩ ⟨a ++ slash :: slash :: b⟩
  /-- A separator is put at the end. -/
  | ended (a : List UInt8) (ha : a ≠ []) : Respelled ⟨a⟩ ⟨a ++ [slash]⟩
  /-- A separator and `.` are put in where a component ends: at the end or before a separator. -/
  | dotted (a b : List UInt8) (hab : a ++ b ≠ []) (hb : b = [] ∨ b.head? = some slash) :
    Respelled ⟨a ++ b⟩ ⟨a ++ slash :: (dot ++ b)⟩

theorem Respelled.components_eq {p q : Path} (h : Respelled p q) : q.components = p.components := by
  cases h with
  | doubled a b =>
    rcases eq_or_ne a [] with rfl | ha
    · rw [List.nil_append, List.nil_append, components_slash, components_slash, namesIn_slash]
    · rw [components_behind ha, components_behind ha, namesIn_slash]
  | ended a ha => rw [components_behind ha, namesIn_nil, List.append_nil]
  | dotted a b hab hb =>
    have hdot : namesIn (dot ++ b) = namesIn b := by
      rcases hb with rfl | hb
      · rfl
      · obtain ⟨b', rfl⟩ := List.head?_eq_some_iff.mp hb
        rw [namesIn_append_slash, namesIn_slash]
        rfl
    rcases hb with rfl | hb
    · rw [List.append_nil] at hab
      rw [components_behind hab, hdot, namesIn_nil, List.append_nil, List.append_nil]
    · obtain ⟨b', rfl⟩ := List.head?_eq_some_iff.mp hb
      rcases eq_or_ne a [] with rfl | ha
      · rw [List.nil_append, List.nil_append, components_slash, components_slash, hdot,
          namesIn_slash]
      · rw [components_behind ha, components_behind ha, hdot, namesIn_slash]

/-! ### Components spelled out again -/

/-- Whether components are such as a path can have: names, after the root or a `.` at most. -/
inductive IsSpelling : List Component → Prop
  | names {ns : List Name} (h : ∀ n ∈ ns, IsPlainName n) : IsSpelling (ns.map .name)
  | fromRoot {ns : List Name} (h : ∀ n ∈ ns, IsPlainName n) : IsSpelling (.root :: ns.map .name)
  | fromHere {ns : List Name} (h : ∀ n ∈ ns, IsPlainName n) : IsSpelling (.here :: ns.map .name)

theorem isSpelling_components (p : Path) : IsSpelling p.components := by
  have hnames : ∀ n ∈ p.pieces.filter isName, IsPlainName n := by
    intro n hn
    obtain ⟨hpiece, hname⟩ := List.mem_filter.mp hn
    exact ⟨hname, fun hslash => (mem_of_mem_splitOn hpiece hslash).2 rfl⟩
  rw [components_eq, lead]
  split_ifs
  · exact .fromRoot hnames
  · exact .fromHere hnames
  · exact .names hnames

theorem IsSpelling.drop {cs : List Component} (h : IsSpelling cs) (k : Nat) :
    IsSpelling (cs.drop k) := by
  have hnames : ∀ {ns : List Name}, (∀ n ∈ ns, IsPlainName n) → ∀ k,
      IsSpelling ((ns.map Component.name).drop k) := by
    intro ns hns k
    rw [← List.map_drop]
    exact .names fun n hn => hns n (List.mem_of_mem_drop hn)
  cases k with
  | zero => exact h
  | succ k =>
    cases h with
    | names hns => exact hnames hns (k + 1)
    | fromRoot hns => exact hnames hns k
    | fromHere hns => exact hnames hns k

theorem ofComponents_of_ne {cs : List Component} (h : cs ≠ [.root]) :
    ofComponents cs = ⟨[slash].intercalate (cs.map spelling)⟩ := by
  rw [ofComponents, if_neg (by simpa using h)]

/-- What is spelled has the components that it spells. -/
theorem IsSpelling.components_ofComponents {cs : List Component} (h : IsSpelling cs) :
    (ofComponents cs).components = cs := by
  have hspelled (ns : List Name) : (ns.map Component.name).map spelling = ns := by
    rw [List.map_map]
    exact List.map_id ns
  cases h with
  | @names ns hns =>
    rw [ofComponents_of_ne (by cases ns <;> simp), hspelled]
    cases ns with
    | nil => rfl
    | cons n rest =>
      obtain ⟨hn, hrest⟩ := List.forall_mem_cons.mp hns
      rcases eq_or_ne rest [] with rfl | hne
      · rw [List.intercalate_singleton, components_of_plain hn]
        rfl
      · rw [List.intercalate_cons_of_ne_nil hne, List.append_assoc, List.singleton_append,
          components_behind (isPlainName_iff.mp hn).1, components_of_plain hn,
          namesIn_intercalate hrest]
        rfl
  | @fromRoot ns hns =>
    rcases eq_or_ne ns [] with rfl | hne
    · rfl
    · rw [ofComponents_of_ne (by simpa using hne), List.map_cons, hspelled,
        List.intercalate_cons_of_ne_nil hne]
      exact (components_slash _).trans (congrArg _ (namesIn_intercalate hns))
  | @fromHere ns hns =>
    rcases eq_or_ne ns [] with rfl | hne
    · rfl
    · rw [ofComponents_of_ne (by simp), List.map_cons, hspelled,
        List.intercalate_cons_of_ne_nil hne, List.append_assoc, List.singleton_append, spelling,
        components_behind (by decide), namesIn_intercalate hns]
      rfl

end Path

end FileWatch

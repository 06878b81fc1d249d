import RunParams.Proofs.TreeShape

/-!
# The leaves of trees

What reading and writing a well-formed tree mean for the set of its leaves: a path has a value exactly when it is that of a leaf,
and a value can be written exactly when no leaf stands above or below the path.
-/

namespace RunParams.Tree

/-! ## Leaves and their names -/

/-- A tree has a leaf with a value at the end of names. -/
inductive HasLeaf : Tree → List String → String → Prop
  | direct {t : Tree} {n v : String} (h : (n, v) ∈ t.values) : HasLeaf t [n] v
  | inside {t c : Tree} {n v : String} {l : List String} (hc : (n, c) ∈ t.subs) (h : HasLeaf c l v) : HasLeaf t (n :: l) v

/-- A path is that of a leaf. -/
def IsLeaf (t : Tree) (p : String) : Prop :=
  ∃ l v, t.HasLeaf l v ∧ p = dotted l

theorem HasLeaf.ne_nil {t : Tree} {l : List String} {v : String} (h : t.HasLeaf l v) : l ≠ [] := by
  cases h <;> simp

theorem not_hasLeaf_nil {t : Tree} {v : String} : ¬t.HasLeaf [] v :=
  fun h => h.ne_nil rfl

theorem not_hasLeaf_empty {l : List String} {v : String} : ¬empty.HasLeaf l v := by
  intro h
  cases h with
  | direct h => simp [empty] at h
  | inside hc _ => simp [empty] at hc

theorem not_isLeaf_empty {p : String} : ¬empty.IsLeaf p := by
  rintro ⟨l, v, hl, -⟩
  exact not_hasLeaf_empty hl

namespace WellFormed

variable {t : Tree}

/-- Every tree but the empty one has a leaf. -/
theorem exists_hasLeaf (h : t.WellFormed) (hne : t ≠ empty) : ∃ n l v, t.HasLeaf (n :: l) v := by
  induction t with
  | leaves vs =>
    cases vs with
    | nil => exact absurd rfl hne
    | cons p vs => exact ⟨p.1, [], p.2, .direct (by simp)⟩
  | branch n c r ihc _ =>
    obtain ⟨m, l, v, hl⟩ := ihc h.2.2.2.2.1 h.2.2.2.1
    exact ⟨n, m :: l, v, .inside (by simp) hl⟩

/-- The names on the way to a leaf have no dots. -/
theorem dotFree_of_hasLeaf (h : t.WellFormed) {l : List String} {v : String} (hl : t.HasLeaf l v) : ∀ n ∈ l, DotFree n := by
  induction hl with
  | direct hv =>
    intro m hm
    rw [List.mem_singleton] at hm
    exact hm ▸ h.dotFree_of_mem_valueNames (List.mem_map.mpr ⟨_, hv, rfl⟩)
  | inside hc _ ih =>
    intro m hm
    rcases List.mem_cons.mp hm with rfl | hm
    · exact h.dotFree_of_mem_subNames (List.mem_map.mpr ⟨_, hc, rfl⟩)
    · exact ih (h.of_mem_subs hc).1 m hm

/-- A leaf is one of the top node, or lies below the sub-tree that its first name leads to. -/
theorem hasLeaf_cons_iff (h : t.WellFormed) {n v : String} {l : List String} :
    t.HasLeaf (n :: l) v ↔ l = [] ∧ t.value? n = some v ∨ ∃ c, t.child? n = some c ∧ c.HasLeaf l v := by
  constructor
  · intro hl
    cases hl with
    | direct hv => exact .inl ⟨rfl, h.value?_eq_some_iff.mpr hv⟩
    | inside hc hl => exact .inr ⟨_, h.child?_eq_some_iff.mpr hc, hl⟩
  · rintro (⟨rfl, hv⟩ | ⟨c, hc, hl⟩)
    · exact .direct (h.value?_eq_some_iff.mp hv)
    · exact .inside (h.child?_eq_some_iff.mp hc) hl

/-- Where the top node has a leaf of a name, it has no sub-tree of that name. -/
theorem child?_eq_none (h : t.WellFormed) {n v : String} (hv : t.value? n = some v) : t.child? n = none := by
  rw [child?_eq_none_iff]
  apply h.not_mem_subNames
  rw [← not_not (a := n ∈ t.valueNames), ← value?_eq_none_iff, hv]
  simp

/-! ## Reading -/

/-- A value is read exactly where there is a leaf. -/
theorem getFrom_eq_some_iff (h : t.WellFormed) {n v : String} {ns : List String} :
    t.getFrom n ns = some v ↔ t.HasLeaf (n :: ns) v := by
  induction ns generalizing t n with
  | nil =>
    rw [h.hasLeaf_cons_iff]
    simp [getFrom, not_hasLeaf_nil]
  | cons m ms ih =>
    rw [h.hasLeaf_cons_iff]
    simp only [getFrom, Option.bind_eq_some_iff, reduceCtorEq, false_and, false_or]
    constructor
    · rintro ⟨c, hc, hg⟩
      exact ⟨c, hc, (ih (h.of_mem_subs (h.child?_eq_some_iff.mp hc)).1).mp hg⟩
    · rintro ⟨c, hc, hl⟩
      exact ⟨c, hc, (ih (h.of_mem_subs (h.child?_eq_some_iff.mp hc)).1).mpr hl⟩

/-- There is a sub-tree exactly where there are leaves below. -/
theorem subFrom_isSome_iff (h : t.WellFormed) {n : String} {ns : List String} :
    (t.subFrom n ns).isSome ↔ ∃ l v, t.HasLeaf l v ∧ ProperPrefix (n :: ns) l := by
  induction ns generalizing t n with
  | nil =>
    constructor
    · intro hs
      obtain ⟨c, hc⟩ := Option.isSome_iff_exists.mp hs
      have hc' := h.child?_eq_some_iff.mp hc
      obtain ⟨m, l, v, hl⟩ := (h.of_mem_subs hc').1.exists_hasLeaf (h.of_mem_subs hc').2
      exact ⟨n :: m :: l, v, .inside hc' hl, m, l, rfl⟩
    · rintro ⟨_, v, hl, m, s, rfl⟩
      rcases h.hasLeaf_cons_iff.mp hl with ⟨hnil, -⟩ | ⟨c, hc, -⟩
      · simp at hnil
      · rw [subFrom, hc]
        rfl
  | cons m ms ih =>
    rw [subFrom]
    cases hc : t.child? n with
    | none =>
      constructor
      · intro hs
        simp at hs
      · rintro ⟨_, v, hl, k, s, rfl⟩
        rcases h.hasLeaf_cons_iff.mp hl with ⟨hnil, -⟩ | ⟨c, hc', -⟩
        · simp at hnil
        · simp [hc] at hc'
    | some c =>
      rw [Option.bind_some, ih (h.of_mem_subs (h.child?_eq_some_iff.mp hc)).1]
      constructor
      · rintro ⟨l, v, hl, hp⟩
        exact ⟨n :: l, v, .inside (h.child?_eq_some_iff.mp hc) hl, properPrefix_cons.mpr ⟨rfl, hp⟩⟩
      · rintro ⟨_, v, hl, k, s, rfl⟩
        rcases h.hasLeaf_cons_iff.mp hl with ⟨hnil, -⟩ | ⟨c', hc', hl'⟩
        · simp at hnil
        · rw [hc, Option.some.injEq] at hc'
          exact ⟨_, v, hc' ▸ hl', k, s, rfl⟩

/-! ## Writing -/

/-- A write fails exactly when a leaf stands above or below the end of the path. -/
theorem setFrom_failed_iff (h : t.WellFormed) {path v n : String} {ns : List String} :
    (t.setFrom path v n ns).2 ≠ none ↔
      ∃ l w, t.HasLeaf l w ∧ (ProperPrefix l (n :: ns) ∨ ProperPrefix (n :: ns) l) := by
  induction ns generalizing t n with
  | nil =>
    have hnil : (t.setFrom path v n []).2 ≠ none ↔ (t.subFrom n []).isSome := by
      rw [Tree.setFrom, subFrom]
      cases t.child? n <;> simp
    rw [hnil, h.subFrom_isSome_iff]
    constructor
    · rintro ⟨l, w, hl, hp⟩
      exact ⟨l, w, hl, .inr hp⟩
    · rintro ⟨l, w, hl, hp | hp⟩
      · exact absurd (properPrefix_singleton.mp hp) hl.ne_nil
      · exact ⟨l, w, hl, hp⟩
  | cons m ms ih =>
    cases hv : t.value? n with
    | some w =>
      have hl : t.HasLeaf [n] w := .direct (h.value?_eq_some_iff.mp hv)
      have hp : ProperPrefix [n] (n :: m :: ms) := ⟨m, ms, rfl⟩
      simp only [Tree.setFrom, hv, Option.isSome_some, if_true]
      exact ⟨fun _ => ⟨[n], w, hl, .inl hp⟩, fun _ => by simp⟩
    | none =>
      simp only [Tree.setFrom, hv, Option.isSome_none, Bool.false_eq_true, if_false]
      rw [ih (h.getD_child? n)]
      constructor
      · rintro ⟨l, w, hl, hp⟩
        cases hc : t.child? n with
        | none =>
          rw [hc] at hl
          exact absurd hl not_hasLeaf_empty
        | some c =>
          rw [hc] at hl
          refine ⟨n :: l, w, .inside (h.child?_eq_some_iff.mp hc) hl, ?_⟩
          rw [properPrefix_cons, properPrefix_cons]
          exact hp.imp (⟨rfl, ·⟩) (⟨rfl, ·⟩)
      · rintro ⟨l, w, hl, hp⟩
        obtain ⟨k, l, rfl⟩ := List.exists_cons_of_ne_nil hl.ne_nil
        rw [properPrefix_cons, properPrefix_cons] at hp
        obtain rfl : k = n := hp.elim (·.1) (·.1.symm)
        rcases h.hasLeaf_cons_iff.mp hl with ⟨-, hv'⟩ | ⟨c, hc, hl'⟩
        · simp [hv] at hv'
        · rw [hc]
          exact ⟨l, w, hl', hp.imp (·.2) (·.2)⟩

end WellFormed

theorem getFrom_empty (n : String) (ns : List String) : empty.getFrom n ns = none := by
  cases ns <;> rfl

/-- What is read below a sub-tree, empty if there is none. -/
theorem getFrom_cons (t : Tree) (n m : String) (ms : List String) :
    t.getFrom n (m :: ms) = ((t.child? n).getD empty).getFrom m ms := by
  rw [getFrom]
  cases t.child? n with
  | none => exact (getFrom_empty m ms).symm
  | some c => rfl

/-- A write that succeeds changes what is read at the end of its own path only. -/
theorem getFrom_setFrom {path v n k : String} {ns ks : List String} {t : Tree} (h : (t.setFrom path v n ns).2 = none) :
    (t.setFrom path v n ns).1.getFrom k ks = if k :: ks = n :: ns then some v else t.getFrom k ks := by
  induction ns generalizing t n k ks with
  | nil =>
    rw [(setFrom_nil_ok h).2]
    cases ks with
    | nil => simp [getFrom, value?_setValue]
    | cons m ms => simp [getFrom]
  | cons m ms ih =>
    obtain ⟨-, hok, e⟩ := setFrom_cons_ok h
    rw [e]
    cases ks with
    | nil => simp [getFrom]
    | cons j js =>
      rw [getFrom_cons, child?_setChild]
      by_cases hk : k = n
      · subst hk
        rw [if_pos rfl, Option.getD_some, ih hok, getFrom_cons]
        simp
      · rw [if_neg hk, ← getFrom_cons]
        simp [hk]

end RunParams.Tree

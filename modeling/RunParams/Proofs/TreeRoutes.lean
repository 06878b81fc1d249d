import RunParams.Proofs.TreeMap

/-!
# Nodes and the routes to leaves

A route is the list of names on the way to a leaf. The routes of a tree are listed in the order of its keys: those through one
node lie together, the leaves of the node first and then, sub-tree by sub-tree, what is below. A write leaves this list as it is,
or puts the one new route into it.
-/

namespace RunParams.Tree

/-! ## Names below names -/

/-- What a path has behind names; nothing if it does not begin with them. -/
def behind : List String → List String → List String
  | [], path => path
  | _ :: _, [] => []
  | m :: ms, n :: ns => if m = n then behind ms ns else []

@[simp] theorem behind_nil (names : List String) : behind names [] = [] := by
  cases names <;> rfl

theorem behind_cons_self (n : String) (names path : List String) : behind (n :: names) (n :: path) = behind names path := by
  rw [behind, if_pos rfl]

theorem behind_cons_of_ne {m n : String} (h : m ≠ n) (names path : List String) : behind (m :: names) (n :: path) = [] := by
  rw [behind, if_neg h]

@[simp] theorem behind_append (names path : List String) : behind names (names ++ path) = path := by
  induction names with
  | nil => rfl
  | cons n names ih => rw [List.cons_append, behind_cons_self, ih]

/-! ## Nodes -/

/-- The node at the end of names; the empty tree if there is none. -/
def nodeAt (t : Tree) : List String → Tree
  | [] => t
  | n :: ns => ((t.child? n).getD empty).nodeAt ns

theorem nodeAt_cons (t : Tree) (n : String) (ns : List String) :
    t.nodeAt (n :: ns) = ((t.child? n).getD empty).nodeAt ns := rfl

theorem nodeAt_append (t : Tree) (names more : List String) : t.nodeAt (names ++ more) = (t.nodeAt names).nodeAt more := by
  induction names generalizing t with
  | nil => rfl
  | cons n names ih => exact ih _

theorem WellFormed.nodeAt {t : Tree} (h : t.WellFormed) (names : List String) : (t.nodeAt names).WellFormed := by
  induction names generalizing t with
  | nil => exact h
  | cons n names ih => exact ih (h.getD_child? n)

/-- The sub-tree at the end of a path is the node there. -/
theorem nodeAt_of_subFrom {t c : Tree} {n : String} {ns : List String} (h : t.subFrom n ns = some c) :
    t.nodeAt (n :: ns) = c := by
  induction ns generalizing t n with
  | nil =>
    rw [subFrom] at h
    rw [nodeAt_cons, h]
    rfl
  | cons m ms ih =>
    rw [subFrom] at h
    obtain ⟨d, hd, hc⟩ := Option.bind_eq_some_iff.mp h
    rw [nodeAt_cons, hd]
    exact ih hc

/-! ## Routes -/

/-- The names on the way to each leaf. -/
def routes (t : Tree) : List (List String) :=
  t.entries.map (·.1)

theorem keys_eq_routes (t : Tree) : t.keys = t.routes.map dotted := by
  rw [keys_eq, routes, List.map_map]
  rfl

theorem mem_routes {t : Tree} {l : List String} : l ∈ t.routes ↔ ∃ v, t.HasLeaf l v := by
  simp [routes, mem_entries]

/-- The routes through a sub-tree. -/
def through (s : String × Tree) : List (List String) :=
  s.2.routes.map (s.1 :: ·)

/-- The routes to the leaves of the top node come first, and then those through each of its sub-trees. -/
theorem routes_eq (t : Tree) : t.routes = (t.valueNames.map fun n => [n]) ++ t.subs.flatMap through := by
  have hsubs : t.subEntries.map (·.1) = t.subs.flatMap through := by
    induction t with
    | leaves vs => rfl
    | branch n c r _ ih =>
      rw [subEntries_branch, List.map_append, ih, subs_branch, List.flatMap_cons, through, routes, List.map_map,
        List.map_map]
      rfl
  rw [routes, entries_eq, List.map_append, hsubs, List.map_map, valueNames, List.map_map]
  rfl

/-- The place of a name among the sub-trees of a node. -/
theorem exists_subs (t : Tree) (n : String) :
    ∃ before after, t.subs = before ++ (t.child? n).toList.map (Prod.mk n) ++ after ∧
      (∀ c, (t.setChild n c).subs = before ++ (n, c) :: after) ∧ n ∉ before.map (·.1) := by
  induction t with
  | leaves vs => exact ⟨[], [], rfl, fun c => rfl, by simp⟩
  | branch m d r _ ih =>
    by_cases hm : m = n
    · subst hm
      exact ⟨[], r.subs, by simp [child?_branch], fun c => by simp [setChild], by simp⟩
    · obtain ⟨before, after, hsubs, hset, hn⟩ := ih
      have hm' : ¬n = m := fun e => hm e.symm
      refine ⟨(m, d) :: before, after, ?_, fun c => ?_, ?_⟩
      · rw [subs_branch, hsubs, child?_branch, if_neg hm']
        rfl
      · rw [setChild, if_neg hm, subs_branch, hset]
        rfl
      · rw [List.map_cons, List.mem_cons, not_or]
        exact ⟨hm', hn⟩

/-- No sub-tree behind the place of a name has the name too. -/
theorem WellFormed.not_mem_after {t : Tree} (h : t.WellFormed) {n : String} {before after : List (String × Tree)}
    (hsubs : t.subs = before ++ (t.child? n).toList.map (Prod.mk n) ++ after) : n ∉ after.map (·.1) := by
  intro hafter
  have hn : n ∈ t.subNames := by
    rw [subNames, hsubs, List.map_append]
    exact List.mem_append_right _ hafter
  have hnodup := h.nodup_subNames
  cases hc : t.child? n with
  | none => exact child?_eq_none_iff.mp hc hn
  | some c =>
    rw [subNames, hsubs, hc, List.map_append, List.nodup_append] at hnodup
    exact hnodup.2.2 n (by simp) n hafter rfl

/-- Routes through sub-trees with other names do not go through a name. -/
theorem behind_of_mem_through {subs : List (String × Tree)} {n : String} (hn : n ∉ subs.map (·.1)) {l : List String}
    (hl : l ∈ subs.flatMap through) (names : List String) : behind (n :: names) l = [] := by
  obtain ⟨s, hs, hl⟩ := List.mem_flatMap.mp hl
  obtain ⟨m, -, rfl⟩ := List.mem_map.mp hl
  refine behind_cons_of_ne ?_ names m
  intro e
  exact hn (List.mem_map.mpr ⟨s, hs, e.symm⟩)

/-- The place of the routes through a name: what stands before and behind them does not go through it. -/
theorem exists_routes (t : Tree) (n : String) :
    ∃ before after, t.routes = before ++ ((t.child? n).getD empty).routes.map (n :: ·) ++ after ∧
      (∀ c, (t.setChild n c).routes = before ++ c.routes.map (n :: ·) ++ after) ∧
      (t.WellFormed → ∀ l ∈ before ++ after, ∀ names, behind (n :: names) l = []) := by
  obtain ⟨before, after, hsubs, hset, hn⟩ := exists_subs t n
  have hmiddle : ((t.child? n).toList.map (Prod.mk n)).flatMap through =
      ((t.child? n).getD empty).routes.map (n :: ·) := by
    cases t.child? n with
    | none => rfl
    | some c => simp [through]
  refine ⟨(t.valueNames.map fun m => [m]) ++ before.flatMap through, after.flatMap through, ?_, fun c => ?_, ?_⟩
  · rw [routes_eq, ← hmiddle, hsubs]
    simp only [List.flatMap_append, List.append_assoc]
  · rw [routes_eq, hset, valueNames, values_setChild]
    simp only [List.flatMap_append, List.flatMap_cons, List.append_assoc]
    rfl
  · intro h l hl names
    rcases List.mem_append.mp hl with hl | hl
    · rcases List.mem_append.mp hl with hl | hl
      · obtain ⟨m, -, rfl⟩ := List.mem_map.mp hl
        by_cases hm : n = m
        · rw [hm, behind_cons_self, behind_nil]
        · exact behind_cons_of_ne hm names []
      · exact behind_of_mem_through hn hl names
    · exact behind_of_mem_through (h.not_mem_after hsubs) hl names

/-! ## Routes through a node -/

namespace WellFormed

variable {t : Tree}

/-- The routes through a node lie together, each with the way to the node in front, and no others go through it. -/
theorem exists_routes_nodeAt (h : t.WellFormed) (names : List String) :
    ∃ before after, t.routes = before ++ (t.nodeAt names).routes.map (names ++ ·) ++ after ∧
      ∀ l ∈ before ++ after, behind names l = [] := by
  induction names generalizing t with
  | nil => exact ⟨[], [], by simp [Tree.nodeAt], by simp⟩
  | cons n names ih =>
    obtain ⟨before, after, hroutes, -, hother⟩ := exists_routes t n
    obtain ⟨first, last, hchild, hwithin⟩ := ih (h.getD_child? n)
    refine ⟨before ++ first.map (n :: ·), last.map (n :: ·) ++ after, ?_, ?_⟩
    · rw [hroutes, hchild, nodeAt_cons]
      simp
    · intro l hl
      have hcases : l ∈ before ++ after ∨ ∃ m ∈ first ++ last, n :: m = l := by
        simp only [List.mem_append, List.mem_map] at hl ⊢
        grind
      rcases hcases with hl | ⟨m, hm, rfl⟩
      · exact hother h l hl names
      · rw [behind_cons_self]
        exact hwithin m hm

/-- The routes that go through a node are those of the node. -/
theorem filter_routes (h : t.WellFormed) (names : List String) :
    (t.routes.filter fun l => decide (behind names l ≠ [])) = (t.nodeAt names).routes.map (names ++ ·) := by
  obtain ⟨before, after, hroutes, hother⟩ := h.exists_routes_nodeAt names
  have hbefore : (before.filter fun l => decide (behind names l ≠ [])) = [] :=
    List.filter_eq_nil_iff.mpr fun l hl => by simp [hother l (List.mem_append_left _ hl)]
  have hafter : (after.filter fun l => decide (behind names l ≠ [])) = [] :=
    List.filter_eq_nil_iff.mpr fun l hl => by simp [hother l (List.mem_append_right _ hl)]
  rw [hroutes, List.filter_append, List.filter_append, hbefore, hafter, List.nil_append, List.append_nil, List.filter_eq_self]
  intro l hl
  obtain ⟨m, hm, rfl⟩ := List.mem_map.mp hl
  obtain ⟨v, hv⟩ := mem_routes.mp hm
  rw [behind_append, decide_eq_true_iff]
  exact hv.ne_nil

end WellFormed

/-! ## The route of a write -/

/-- A list is another with one element put into it. -/
def Inserted {α : Type} (a : α) (l m : List α) : Prop :=
  ∃ before after, l = before ++ after ∧ m = before ++ a :: after

theorem Inserted.not_mem {α : Type} {a : α} {l m : List α} (h : Inserted a l m) (hn : m.Nodup) : a ∉ l := by
  obtain ⟨before, after, rfl, rfl⟩ := h
  exact (List.nodup_cons.mp (List.nodup_middle.mp hn)).1

theorem Inserted.map {α β : Type} {a : α} {l m : List α} (h : Inserted a l m) (f : α → β) :
    Inserted (f a) (l.map f) (m.map f) := by
  obtain ⟨before, after, rfl, rfl⟩ := h
  exact ⟨before.map f, after.map f, by simp, by simp⟩

theorem Inserted.within {α : Type} {a : α} {l m : List α} (h : Inserted a l m) (first last : List α) :
    Inserted a (first ++ l ++ last) (first ++ m ++ last) := by
  obtain ⟨before, after, rfl, rfl⟩ := h
  exact ⟨first ++ before, after ++ last, by simp, by simp⟩

theorem routes_setValue (n v : String) (t : Tree) :
    (t.setValue n v).routes =
      (t.valueNames.map fun m => [m]) ++ ((if n ∈ t.valueNames then [] else [[n]]) ++ t.subs.flatMap through) := by
  have hnames : (t.setValue n v).valueNames = t.valueNames ++ if n ∈ t.valueNames then [] else [n] := by
    rw [valueNames, values_setValue, map_fst_putValue]
    rfl
  rw [routes_eq, hnames, subs_setValue, List.map_append, List.append_assoc]
  split <;> rfl

/-- A write that succeeds leaves the routes, or puts its own into them. -/
theorem routes_setFrom {path v n : String} {ns : List String} {t : Tree} (ok : (t.setFrom path v n ns).2 = none) :
    (t.setFrom path v n ns).1.routes = t.routes ∨ Inserted (n :: ns) t.routes (t.setFrom path v n ns).1.routes := by
  induction ns generalizing t n with
  | nil =>
    rw [(setFrom_nil_ok ok).2, routes_setValue]
    by_cases hn : n ∈ t.valueNames
    · left
      rw [if_pos hn, List.nil_append, ← routes_eq]
    · right
      rw [if_neg hn]
      exact ⟨_, _, routes_eq t, rfl⟩
  | cons m ms ih =>
    obtain ⟨-, hok, e⟩ := setFrom_cons_ok ok
    obtain ⟨before, after, hroutes, hset, -⟩ := exists_routes t n
    rw [e, hroutes, hset]
    rcases ih hok with h | h
    · left
      rw [h]
    · right
      exact (h.map (n :: ·)).within before after

end RunParams.Tree

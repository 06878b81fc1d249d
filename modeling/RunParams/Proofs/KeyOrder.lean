import RunParams.Proofs.TreeRoutes

/-!
# The order of keys

Writes never reorder keys: a write of a path that has a value leaves the list of keys, and any other puts its path into it. So at
every node the leaves come in the order of their first write, and behind them the sub-trees in the order of the first write below
them, the keys of each together.
-/

namespace RunParams.Tree

/-! ## Histories -/

/-- An act that writes at a path of the tree, be it to the tree itself or below one of its sub-trees. -/
inductive IsWriteAt : (Tree → Tree × Option TreeError) → String → Prop
  | set (path value : String) : IsWriteAt (·.set path value) path
  | within (s : String) {act : Tree → Tree × Option TreeError} {path : String} (h : IsWriteAt act path) :
      IsWriteAt (·.within s act) (s ++ "." ++ path)

/-- What writes make of the empty tree, with the paths of the writes that were accepted, in their order. A write to a sub-tree that
is missing goes into a tree of its own: it meets no error, but its path has no value afterwards. -/
inductive History : List String → Tree → Prop
  | empty : History [] Tree.empty
  | accepted {paths : List String} {t : Tree} {act : Tree → Tree × Option TreeError} {path : String} (h : History paths t)
      (ha : IsWriteAt act path) (ok : (act t).2 = none) (hkey : (act t).1.hasKey path = true) :
      History (paths ++ [path]) (act t).1
  | rejected {paths : List String} {t : Tree} {act : Tree → Tree × Option TreeError} {path : String} (h : History paths t)
      (ha : IsWriteAt act path) (hno : (act t).2 ≠ none ∨ (act t).1.hasKey path = false) : History paths (act t).1

theorem IsWriteAt.isWrite {act : Tree → Tree × Option TreeError} {path : String} (h : IsWriteAt act path) : IsWrite act := by
  induction h with
  | set path value => exact .set path value
  | within s _ ih => exact .within s ih

theorem IsWrite.exists_path {act : Tree → Tree × Option TreeError} (h : IsWrite act) : ∃ path, IsWriteAt act path := by
  induction h with
  | set path value => exact ⟨path, .set path value⟩
  | within s _ ih =>
    obtain ⟨path, h⟩ := ih
    exact ⟨_, .within s h⟩

/-- The reachable trees are those that have a history. -/
theorem reachable_iff_history {t : Tree} : t.Reachable ↔ ∃ paths, History paths t := by
  constructor
  · intro h
    induction h with
    | empty => exact ⟨[], .empty⟩
    | @write t act _ ha ih =>
      obtain ⟨paths, h⟩ := ih
      obtain ⟨path, hat⟩ := ha.exists_path
      by_cases hkey : (act t).2 = none ∧ (act t).1.hasKey path = true
      · exact ⟨_, .accepted h hat hkey.1 hkey.2⟩
      · rw [not_and_or, Bool.not_eq_true] at hkey
        exact ⟨_, .rejected h hat hkey⟩
  · intro h
    obtain ⟨paths, h⟩ := h
    induction h with
    | empty => exact .empty
    | accepted _ ha _ _ ih => exact ih.write ha.isWrite
    | rejected _ ha _ ih => exact ih.write ha.isWrite

/-! ## Writes below sub-trees -/

/-- What is read below a sub-tree is read in it. -/
theorem getFrom_of_subFrom {t c : Tree} {n : String} {ns : List String} (h : t.subFrom n ns = some c) (m : String)
    (ms : List String) : t.getFrom n (ns ++ m :: ms) = c.getFrom m ms := by
  induction ns generalizing t n with
  | nil =>
    rw [subFrom] at h
    rw [List.nil_append, getFrom, h, Option.bind_some]
  | cons k ks ih =>
    obtain ⟨d, hd, hc⟩ := Option.bind_eq_some_iff.mp h
    rw [List.cons_append, getFrom, hd, Option.bind_some, ih hc]

/-- What is read at a path below a sub-tree is read in the sub-tree at the rest of the path. -/
theorem get?_of_sub? {t c : Tree} {s : String} (h : t.sub? s = some c) (p : String) : t.get? (s ++ "." ++ p) = c.get? p := by
  have hnames := names_ofString (s ++ "." ++ p)
  rw [segments_append_dot, ← names_ofString s, ← names_ofString p, List.cons_append, List.cons.injEq] at hnames
  rw [get?, hnames.1, hnames.2]
  exact getFrom_of_subFrom h _ _

/-- A write at a path, to the tree or below a sub-tree, does what setting some value at the path does, or leaves the tree, which
has no value at the path. -/
theorem IsWriteAt.eq_set {act : Tree → Tree × Option TreeError} {path : String} (ha : IsWriteAt act path) {t : Tree}
    (h : t.WellFormed) :
    (∃ v, (act t).1 = (t.set path v).1 ∧ ((act t).2 = none ↔ (t.set path v).2 = none)) ∨
      (act t).1 = t ∧ t.hasKey path = false := by
  induction ha generalizing t with
  | set path value => exact .inl ⟨value, rfl, Iff.rfl⟩
  | @within s act path _ ih =>
    cases hsub : t.sub? s with
    | none =>
      right
      refine ⟨congrArg Prod.fst (withinFrom_of_subFrom_none hsub act), ?_⟩
      rw [← Bool.not_eq_true, h.hasKey_iff]
      intro hleaf
      have hs : t.hasSub s = true := h.hasSub_iff.mpr ⟨_, hleaf, path, rfl⟩
      rw [hasSub, hsub] at hs
      cases hs
    | some c =>
      have hs : t.hasSub s = true := by
        rw [hasSub, hsub]
        rfl
      have hc : c.WellFormed := by
        rw [← nodeAt_of_subFrom hsub]
        exact h.nodeAt _
      obtain ⟨put, hput, hact⟩ := exists_withinFrom hsub
      have hwithin : ∀ act : Tree → Tree × Option TreeError, t.within s act = (put (act c).1, (act c).2) := fun act => hact act
      have hself : t.within s act = (put (act c).1, (act c).2) := hwithin act
      rcases ih hc with ⟨v, htree, herror⟩ | ⟨htree, hkey⟩
      · obtain ⟨hset, hseterror⟩ := h.within_set hs path v
        rw [hwithin, ← htree] at hset
        rw [hwithin] at hseterror
        refine .inl ⟨v, (congrArg Prod.fst hself).trans hset, ?_⟩
        change (t.within s act).2 = none ↔ _
        rw [hself]
        exact herror.trans hseterror
      · refine .inr ⟨(congrArg Prod.fst hself).trans ?_, ?_⟩
        · rw [htree, hput]
        · rw [hasKey, get?_of_sub? hsub]
          exact hkey

/-! ## Names in the order of their first write -/

/-- The name of the leaf that a path gives to the node at the end of names. -/
def leafName? (names path : List String) : Option String :=
  match behind names path with
  | [n] => some n
  | _ => none

/-- The name of the sub-tree of the node at the end of names that a path goes through. -/
def subName? (names path : List String) : Option String :=
  match behind names path with
  | n :: _ :: _ => some n
  | _ => none

/-- Names with one more name behind them, unless it is one of them. -/
def addName (l : List String) : Option String → List String
  | none => l
  | some n => l ++ if n ∈ l then [] else [n]

theorem subNames_setChild (n : String) (c t : Tree) : (t.setChild n c).subNames = addName t.subNames (some n) := by
  induction t with
  | leaves vs => rfl
  | branch m d r _ ih =>
    change ((branch m d r).setChild n c).subNames = (m :: r.subNames) ++ if n ∈ m :: r.subNames then [] else [n]
    by_cases hm : m = n
    · rw [setChild, if_pos hm, if_pos (by simp [hm]), List.append_nil]
      rfl
    · have hmem : n ∈ m :: r.subNames ↔ n ∈ r.subNames := by simp [Ne.symm hm]
      rw [setChild, if_neg hm]
      simp only [hmem]
      exact congrArg (m :: ·) ih

/-- A write that succeeds gives the node before its last name this name as that of a leaf, and each node before that the next name
as that of a sub-tree. -/
theorem names_setFrom {path v n : String} {ns : List String} {t : Tree} (ok : (t.setFrom path v n ns).2 = none)
    (names : List String) :
    ((t.setFrom path v n ns).1.nodeAt names).valueNames = addName (t.nodeAt names).valueNames (leafName? names (n :: ns)) ∧
      ((t.setFrom path v n ns).1.nodeAt names).subNames = addName (t.nodeAt names).subNames (subName? names (n :: ns)) := by
  induction ns generalizing t n names with
  | nil =>
    rw [(setFrom_nil_ok ok).2]
    cases names with
    | nil =>
      refine ⟨?_, ?_⟩
      · simp only [nodeAt, valueNames, values_setValue, map_fst_putValue]
        rfl
      · simp only [nodeAt, subNames, subs_setValue]
        rfl
    | cons m ms =>
      have hother : behind (m :: ms) [n] = [] := by
        by_cases hm : m = n
        · rw [hm, behind_cons_self, behind_nil]
        · exact behind_cons_of_ne hm ms []
      rw [nodeAt_cons, nodeAt_cons, child?_setValue, leafName?, subName?, hother]
      exact ⟨rfl, rfl⟩
  | cons k ks ih =>
    obtain ⟨-, hok, e⟩ := setFrom_cons_ok ok
    rw [e]
    cases names with
    | nil =>
      refine ⟨?_, ?_⟩
      · simp only [nodeAt, valueNames, values_setChild]
        rfl
      · exact subNames_setChild n _ t
    | cons m ms =>
      rw [nodeAt_cons, nodeAt_cons, child?_setChild]
      by_cases hm : m = n
      · subst hm
        rw [if_pos rfl, Option.getD_some]
        obtain ⟨hv, hs⟩ := ih hok ms
        refine ⟨?_, ?_⟩
        · rw [hv, leafName?, leafName?, behind_cons_self]
        · rw [hs, subName?, subName?, behind_cons_self]
      · rw [if_neg hm, leafName?, subName?, behind_cons_of_ne hm]
        exact ⟨rfl, rfl⟩

theorem names_set {t : Tree} {p v : String} (ok : (t.set p v).2 = none) (names : List String) :
    ((t.set p v).1.nodeAt names).valueNames = addName (t.nodeAt names).valueNames (leafName? names (Spelling.segments p)) ∧
      ((t.set p v).1.nodeAt names).subNames = addName (t.nodeAt names).subNames (subName? names (Spelling.segments p)) := by
  rw [← names_ofString p]
  exact names_setFrom ok names

theorem eraseDups_concat (l : List String) (n : String) : (l ++ [n]).eraseDups = addName l.eraseDups (some n) := by
  rw [List.eraseDups_append, addName]
  by_cases hn : n ∈ l <;> simp [List.removeAll, hn, List.eraseDups_cons]

/-- The first occurrences of names, with one more name behind. -/
theorem eraseDups_filterMap_concat {α : Type} (f : α → Option String) (l : List α) (a : α) :
    ((l ++ [a]).filterMap f).eraseDups = addName (l.filterMap f).eraseDups (f a) := by
  rw [List.filterMap_append]
  cases hf : f a with
  | none => simp [hf, addName]
  | some n =>
    have hlast : [a].filterMap f = [n] := by simp [hf]
    rw [hlast, eraseDups_concat]

/-- What an accepted write does to a tree is to set some value. -/
theorem IsWriteAt.of_accepted {act : Tree → Tree × Option TreeError} {path : String} (ha : IsWriteAt act path) {t : Tree}
    (h : t.WellFormed) (ok : (act t).2 = none) (hkey : (act t).1.hasKey path = true) :
    ∃ v, (t.set path v).2 = none ∧ (act t).1 = (t.set path v).1 := by
  rcases ha.eq_set h with ⟨v, htree, herror⟩ | ⟨htree, hno⟩
  · exact ⟨v, herror.mp ok, htree⟩
  · rw [htree, hno] at hkey
    cases hkey

/-- A write that is not accepted leaves a tree. -/
theorem IsWriteAt.of_rejected {act : Tree → Tree × Option TreeError} {path : String} (ha : IsWriteAt act path) {t : Tree}
    (h : t.WellFormed) (hno : (act t).2 ≠ none ∨ (act t).1.hasKey path = false) : (act t).1 = t := by
  rcases ha.eq_set h with ⟨v, htree, herror⟩ | ⟨htree, -⟩
  · have hfailed : (t.set path v).2 ≠ none := by
      intro ok
      rcases hno with hno | hno
      · exact hno (herror.mpr ok)
      · rw [htree, hasKey, get?_set ok, if_pos rfl] at hno
        cases hno
    rw [htree, set_eq_self hfailed]
  · exact htree

/-- At every node the names of leaves come in the order of the first accepted write of each, and those of sub-trees in the order of
the first one below each. -/
theorem History.names_eq {paths : List String} {t : Tree} (h : History paths t) (names : List String) :
    (t.nodeAt names).valueNames = (paths.filterMap fun p => leafName? names (Spelling.segments p)).eraseDups ∧
      (t.nodeAt names).subNames = (paths.filterMap fun p => subName? names (Spelling.segments p)).eraseDups := by
  induction h with
  | empty =>
    have hnode : Tree.empty.nodeAt names = Tree.empty := by
      induction names with
      | nil => rfl
      | cons n names ih => exact ih
    rw [hnode]
    exact ⟨rfl, rfl⟩
  | @accepted paths t act path h ha ok hkey ih =>
    have hw := (reachable_iff_history.mpr ⟨_, h⟩).wellFormed
    obtain ⟨v, hset, htree⟩ := ha.of_accepted hw ok hkey
    obtain ⟨hvalues, hsubs⟩ := names_set hset names
    rw [htree, hvalues, hsubs, eraseDups_filterMap_concat, eraseDups_filterMap_concat, ih.1, ih.2]
    exact ⟨rfl, rfl⟩
  | rejected h ha hno ih =>
    have hw := (reachable_iff_history.mpr ⟨_, h⟩).wellFormed
    rw [ha.of_rejected hw hno]
    exact ih

/-! ## Keys below nodes -/

/-- The keys below the node at the end of names, in their order. -/
def keysBelow (t : Tree) (names : List String) : List String :=
  t.keys.filter fun k => decide (behind names (Spelling.segments k) ≠ [])

namespace WellFormed

variable {t : Tree}

theorem segments_of_mem_routes (h : t.WellFormed) {l : List String} (hl : l ∈ t.routes) :
    Spelling.segments (dotted l) = l := by
  obtain ⟨v, hv⟩ := mem_routes.mp hl
  exact segments_dotted (h.dotFree_of_hasLeaf hv) hv.ne_nil

/-- The keys below a node are those of the routes through it. -/
theorem keysBelow_eq (h : t.WellFormed) (names : List String) :
    t.keysBelow names = ((t.nodeAt names).routes.map (names ++ ·)).map dotted := by
  rw [keysBelow, keys_eq_routes, List.filter_map, ← h.filter_routes]
  congr 1
  refine List.filter_congr fun l hl => ?_
  rw [Function.comp_apply, h.segments_of_mem_routes hl]

/-- The keys below a node lie together. -/
theorem keysBelow_infix (h : t.WellFormed) (names : List String) : t.keysBelow names <:+: t.keys := by
  obtain ⟨before, after, hroutes, -⟩ := h.exists_routes_nodeAt names
  refine ⟨before.map dotted, after.map dotted, ?_⟩
  rw [h.keysBelow_eq, keys_eq_routes, hroutes]
  simp only [List.map_append]

/-- The keys below a node are those of its leaves, and behind them those below each of its sub-trees. -/
theorem keysBelow_split (h : t.WellFormed) (names : List String) :
    t.keysBelow names = (t.nodeAt names).valueNames.map (fun n => dotted (names ++ [n])) ++
      (t.nodeAt names).subNames.flatMap fun n => t.keysBelow (names ++ [n]) := by
  have hnode := h.nodeAt names
  have hsub : ∀ s ∈ (t.nodeAt names).subs,
      ((through s).map (names ++ ·)).map dotted = t.keysBelow (names ++ [s.1]) := by
    intro s hs
    have hchild : t.nodeAt (names ++ [s.1]) = s.2 := by
      rw [nodeAt_append, nodeAt_cons, hnode.child?_eq_some_iff.mpr hs]
      rfl
    rw [h.keysBelow_eq, hchild, through, List.map_map]
    simp
  rw [h.keysBelow_eq, routes_eq, List.map_append, List.map_append, List.map_map, List.map_map]
  congr 1
  rw [subNames, List.flatMap_map, List.map_flatMap, List.map_flatMap]
  exact List.flatMap_congr hsub

end WellFormed

/-! ## The order of all keys -/

/-- A write that succeeds leaves the keys, or puts its own into them. -/
theorem keys_set {t : Tree} {p v : String} (ok : (t.set p v).2 = none) :
    (t.set p v).1.keys = t.keys ∨ Inserted p t.keys (t.set p v).1.keys := by
  rw [keys_eq_routes, keys_eq_routes]
  rcases routes_setFrom ok with h | h
  · left
    exact congrArg (List.map dotted) h
  · right
    have hkeys := h.map dotted
    rw [names_ofString, dotted_segments] at hkeys
    exact hkeys

/-- At the node at the end of names, all is in the order in which paths were written. -/
structure OrderedBy (paths : List String) (t : Tree) (names : List String) : Prop where
  /-- The leaves come in the order of the first write of each. -/
  leaves : (t.nodeAt names).valueNames = (paths.filterMap fun p => leafName? names (Spelling.segments p)).eraseDups
  /-- The sub-trees come in the order of the first write below each. -/
  subs : (t.nodeAt names).subNames = (paths.filterMap fun p => subName? names (Spelling.segments p)).eraseDups
  /-- The keys below the node lie together. -/
  together : t.keysBelow names <:+: t.keys
  /-- The keys of the leaves come before all those below the sub-trees, and these come sub-tree by sub-tree. -/
  split : t.keysBelow names = (t.nodeAt names).valueNames.map (fun n => dotted (names ++ [n])) ++
    (t.nodeAt names).subNames.flatMap fun n => t.keysBelow (names ++ [n])

/-- A write to a reachable tree that succeeds leaves the list of keys if its path is that of a leaf, and else puts the path into the
list, where all others keep their order. Every reachable tree has a history, and whatever its history is, at every node the leaves
come before the sub-trees, the leaves in the order of the first write of each and the sub-trees in the order of the first write
below each, and the keys below the node and below each of its sub-trees lie together. -/
theorem writes_keep_order :
    (∀ t : Tree, t.Reachable → ∀ p v, (t.set p v).2 = none →
      (t.IsLeaf p → (t.set p v).1.keys = t.keys) ∧ (¬t.IsLeaf p → Inserted p t.keys (t.set p v).1.keys)) ∧
    (∀ t : Tree, t.Reachable ↔ ∃ paths, History paths t) ∧
    ∀ paths t, History paths t → ∀ names, OrderedBy paths t names := by
  refine ⟨?_, fun t => reachable_iff_history, ?_⟩
  · intro t h p v ok
    have hw := h.wellFormed
    rw [← mem_keys]
    refine ⟨?_, ?_⟩
    · intro hp
      rcases keys_set ok with hsame | hinserted
      · exact hsame
      · exact absurd hp (hinserted.not_mem (hw.set p v).nodup_keys)
    · intro hp
      rcases keys_set ok with hsame | hinserted
      · have hmem : p ∈ (t.set p v).1.keys := (hw.set p v).mem_keys_of_get? ((get?_set ok p).trans (if_pos rfl))
        exact absurd (hsame ▸ hmem) hp
      · exact hinserted
  · intro paths t h names
    have hw := (reachable_iff_history.mpr ⟨_, h⟩).wellFormed
    obtain ⟨hleaves, hsubs⟩ := h.names_eq names
    exact ⟨hleaves, hsubs, hw.keysBelow_infix names, hw.keysBelow_split names⟩

/-- Writes at the top and below a sub-tree by turns, one of which is rejected, and one through the sub-tree. -/
theorem writes_keep_order_of_six :
    let t := branch "Newton" (branch "Linear" (leaves [("Solver", "bicgstab")])
      (leaves [("Tolerance", "1e-8"), ("MaxIterations", "20")])) (leaves [("Zeta", "1"), ("Alpha", "2")])
    let paths := ["Newton.Tolerance", "Zeta", "Alpha", "Newton.Linear.Solver", "Newton.MaxIterations"]
    History paths t ∧ OrderedBy paths t ["Newton"] ∧ t.Reachable ∧
      ((t.set "Newton.Linear.Steps" "3").2 = none ∧ "Newton.Linear.Steps" ∉ t.keys ∧
        Inserted "Newton.Linear.Steps" t.keys (t.set "Newton.Linear.Steps" "3").1.keys) := by
  intro t paths
  have first : History ["Newton.Tolerance"] (empty.set "Newton.Tolerance" "1e-8").1 :=
    .accepted .empty (.set _ _) (by decide +kernel) (by decide +kernel)
  have second := first.accepted (.set "Zeta" "1") (by decide +kernel) (by decide +kernel)
  have third := second.accepted (.set "Alpha" "2") (by decide +kernel) (by decide +kernel)
  have fourth := third.rejected (.set "Newton" "off") (.inl (by decide +kernel))
  have fifth := fourth.accepted (.set "Newton.Linear.Solver" "bicgstab") (by decide +kernel) (by decide +kernel)
  have sixth := fifth.accepted (.within "Newton" (.set "MaxIterations" "20")) (by decide +kernel) (by decide +kernel)
  have hhistory : History paths t := sixth
  obtain ⟨hset, hreachable, hordered⟩ := writes_keep_order
  have ht : t.Reachable := (hreachable t).mpr ⟨paths, hhistory⟩
  have ok : (t.set "Newton.Linear.Steps" "3").2 = none := by decide +kernel
  have hnew : "Newton.Linear.Steps" ∉ t.keys := by decide +kernel
  exact ⟨hhistory, hordered _ _ hhistory ["Newton"], ht, ok, hnew, (hset t ht _ _ ok).2 fun hleaf => hnew (mem_keys.mpr hleaf)⟩

end RunParams.Tree

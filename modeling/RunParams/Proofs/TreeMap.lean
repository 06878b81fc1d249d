import Mathlib.Data.Set.Card
import RunParams.Proofs.TreeListing

/-!
# Trees as maps

A tree that is made by writes, be they of the tree itself or of its sub-trees, is a finite map from paths to values. No path of
the map stands above another one, and a write gives its own path a value and keeps all others.
-/

namespace RunParams.Tree

/-! ## Reading and writing by the text of a path -/

namespace WellFormed

variable {t : Tree}

/-- A property of the segments of a leaf's path is one of the names on the way to the leaf. -/
theorem exists_leaf_iff (h : t.WellFormed) (P : List String → Prop) :
    (∃ l v, t.HasLeaf l v ∧ P l) ↔ ∃ p, t.IsLeaf p ∧ P (Spelling.segments p) := by
  constructor
  · rintro ⟨l, v, hl, hp⟩
    refine ⟨dotted l, ⟨l, v, hl, rfl⟩, ?_⟩
    rw [segments_dotted (h.dotFree_of_hasLeaf hl) hl.ne_nil]
    exact hp
  · rintro ⟨_, ⟨l, v, hl, rfl⟩, hp⟩
    rw [segments_dotted (h.dotFree_of_hasLeaf hl) hl.ne_nil] at hp
    exact ⟨l, v, hl, hp⟩

theorem get?_eq_some_iff (h : t.WellFormed) {p v : String} :
    t.get? p = some v ↔ t.HasLeaf (Spelling.segments p) v := by
  rw [get?, h.getFrom_eq_some_iff, names_ofString]

/-- A path leads to a value exactly when it is that of a leaf. -/
theorem hasKey_iff (h : t.WellFormed) {p : String} : t.hasKey p = true ↔ t.IsLeaf p := by
  rw [hasKey, Option.isSome_iff_exists]
  constructor
  · rintro ⟨v, hv⟩
    exact ⟨_, v, h.get?_eq_some_iff.mp hv, (dotted_segments p).symm⟩
  · rintro ⟨l, v, hl, rfl⟩
    refine ⟨v, h.get?_eq_some_iff.mpr ?_⟩
    rw [segments_dotted (h.dotFree_of_hasLeaf hl) hl.ne_nil]
    exact hl

theorem mem_keys_iff (h : t.WellFormed) {p : String} : p ∈ t.keys ↔ t.hasKey p = true := by
  rw [mem_keys, h.hasKey_iff]

theorem mem_keys_of_get? (h : t.WellFormed) {p v : String} (hv : t.get? p = some v) : p ∈ t.keys := by
  rw [h.mem_keys_iff, hasKey, hv]
  rfl

/-- A path leads to a sub-tree exactly when it stands above that of a leaf. -/
theorem hasSub_iff (h : t.WellFormed) {p : String} : t.hasSub p = true ↔ ∃ q, t.IsLeaf q ∧ IsAbove p q := by
  rw [hasSub, sub?, h.subFrom_isSome_iff, names_ofString, h.exists_leaf_iff]
  simp only [isAbove_iff]

/-- A write fails exactly when a leaf's path stands above the path of the write, or below it. -/
theorem set_failed_iff (h : t.WellFormed) {p v : String} :
    (t.set p v).2 ≠ none ↔ ∃ q, t.IsLeaf q ∧ (IsAbove q p ∨ IsAbove p q) := by
  rw [Tree.set, h.setFrom_failed_iff, names_ofString,
    h.exists_leaf_iff fun l => ProperPrefix l (Spelling.segments p) ∨ ProperPrefix (Spelling.segments p) l]
  simp only [isAbove_iff]

/-- The names on the way to a leaf are no proper beginning of those on the way to another. -/
theorem not_properPrefix (h : t.WellFormed) {l m : List String} {v w : String} (hl : t.HasLeaf l v) (hm : t.HasLeaf m w) :
    ¬ProperPrefix l m := by
  intro hp
  induction hl generalizing m with
  | direct hv =>
    obtain ⟨k, s, rfl⟩ := hp
    rcases h.hasLeaf_cons_iff.mp hm with ⟨hnil, -⟩ | ⟨c, hc, -⟩
    · exact absurd hnil (by simp)
    · rw [h.child?_eq_none (h.value?_eq_some_iff.mpr hv)] at hc
      exact absurd hc (by simp)
  | inside hc hl ih =>
    obtain ⟨k, s, rfl⟩ := hp
    rw [List.cons_append, h.hasLeaf_cons_iff] at hm
    rcases hm with ⟨hnil, -⟩ | ⟨d, hd, hm⟩
    · exact absurd hnil (by simp)
    · rw [h.child?_eq_some_iff.mpr hc, Option.some.injEq] at hd
      exact ih (h.of_mem_subs hc).1 (hd ▸ hm) ⟨k, s, rfl⟩

/-- No leaf's path stands above another's. -/
theorem prefixFree (h : t.WellFormed) : PrefixFree t.IsLeaf := by
  intro p q hp hq
  rw [isAbove_iff]
  obtain ⟨l, v, hl, rfl⟩ := hp
  obtain ⟨m, w, hm, rfl⟩ := hq
  rw [segments_dotted (h.dotFree_of_hasLeaf hl) hl.ne_nil, segments_dotted (h.dotFree_of_hasLeaf hm) hm.ne_nil]
  exact h.not_properPrefix hl hm

/-- A tree that is not empty has a leaf, and one with a leaf is not empty. -/
theorem ne_empty_iff (h : t.WellFormed) : t ≠ empty ↔ ∃ p, t.IsLeaf p := by
  constructor
  · intro hne
    obtain ⟨n, l, v, hl⟩ := h.exists_hasLeaf hne
    exact ⟨_, _, v, hl, rfl⟩
  · rintro ⟨_, l, v, hl, -⟩ rfl
    exact not_hasLeaf_empty hl

end WellFormed

/-- After a write that succeeds its path has the value, and every other path has what it had. -/
theorem get?_set {t : Tree} {p v : String} (h : (t.set p v).2 = none) (q : String) :
    (t.set p v).1.get? q = if q = p then some v else t.get? q := by
  have hq : (Path.ofString q).first :: (Path.ofString q).rest = (Path.ofString p).first :: (Path.ofString p).rest ↔
      q = p := by
    rw [names_ofString, names_ofString, segments_inj]
  rw [get?, Tree.set, getFrom_setFrom h, get?]
  simp only [hq]

/-- A tree refuses a value at a name without dots exactly when the name is that of a sub-tree. -/
theorem set_eq_some_iff {t : Tree} {name value : String} {e : TreeError} (hd : DotFree name) :
    (t.set name value).2 = some e ↔ t.hasSub name = true ∧ e = .isSubTree name := by
  rw [Tree.set, hasSub, sub?, ofString_of_dotFree hd]
  simp only [setFrom, subFrom]
  split
  · rename_i hchild
    simp [hchild, eq_comm]
  · rename_i hchild
    simp [hchild]

theorem isEmpty_eq_true_iff {t : Tree} : t.isEmpty = true ↔ t = empty := by
  cases t with
  | leaves vs => simp [isEmpty, empty]
  | branch n c r => simp [isEmpty, empty]

/-! ## Writing below a sub-tree -/

/-- The text of the path counts for the error of a write only. -/
theorem setFrom_congr (path path' v n : String) (ns : List String) (t : Tree) :
    (t.setFrom path v n ns).1 = (t.setFrom path' v n ns).1 ∧
      ((t.setFrom path v n ns).2 = none ↔ (t.setFrom path' v n ns).2 = none) := by
  induction ns generalizing t n with
  | nil =>
    simp only [setFrom]
    split <;> simp
  | cons m ms ih =>
    simp only [setFrom]
    split
    · simp
    · obtain ⟨h1, h2⟩ := ih m ((t.child? n).getD empty)
      exact ⟨congrArg (t.setChild n) h1, h2⟩

/-- Acting below a sub-tree that is not there leaves the tree. -/
theorem withinFrom_none {α : Type} {act : Tree → Tree × α} {t : Tree} {n : String} (hc : t.child? n = none)
    (ns : List String) : t.withinFrom act n ns = (t, (act empty).2) := by
  cases ns <;> simp [withinFrom, hc]

/-- Acting on a sub-tree of the top node. -/
theorem withinFrom_nil {α : Type} {act : Tree → Tree × α} {t c : Tree} {n : String} (hc : t.child? n = some c) :
    t.withinFrom act n [] = (t.setChild n (act c).1, (act c).2) := by
  simp [withinFrom, hc]

/-- Acting below a sub-tree of the top node. -/
theorem withinFrom_cons {α : Type} {act : Tree → Tree × α} {t c : Tree} {n : String} (hc : t.child? n = some c)
    (m : String) (ms : List String) :
    t.withinFrom act n (m :: ms) = (t.setChild n (c.withinFrom act m ms).1, (c.withinFrom act m ms).2) := by
  simp [withinFrom, hc]

/-- Acting where there is no sub-tree leaves the tree. -/
theorem withinFrom_of_subFrom_none {α : Type} {t : Tree} {n : String} {ns : List String} (h : t.subFrom n ns = none)
    (act : Tree → Tree × α) : t.withinFrom act n ns = (t, (act empty).2) := by
  induction ns generalizing t n with
  | nil => exact withinFrom_none h []
  | cons m ms ih =>
    cases hd : t.child? n with
    | none => exact withinFrom_none hd _
    | some d =>
      rw [subFrom, hd, Option.bind_some] at h
      rw [withinFrom_cons hd, ih h, setChild_child? hd]

/-- Acting on the sub-tree at the end of a path puts what becomes of it in its place. -/
theorem exists_withinFrom {t c : Tree} {n : String} {ns : List String} (h : t.subFrom n ns = some c) :
    ∃ put : Tree → Tree, put c = t ∧
      ∀ {α : Type} (act : Tree → Tree × α), t.withinFrom act n ns = (put (act c).1, (act c).2) := by
  induction ns generalizing t n with
  | nil => exact ⟨t.setChild n, setChild_child? h, fun act => withinFrom_nil h⟩
  | cons m ms ih =>
    obtain ⟨d, hd, hc⟩ := Option.bind_eq_some_iff.mp h
    obtain ⟨put, hput, hact⟩ := ih hc
    refine ⟨fun c => t.setChild n (put c), (congrArg (t.setChild n) hput).trans (setChild_child? hd), fun act => ?_⟩
    rw [withinFrom_cons hd, hact]

/-- A write below a sub-tree goes on in the sub-tree. -/
theorem WellFormed.setFrom_of_child? {t c : Tree} (h : t.WellFormed) {n : String} (hc : t.child? n = some c)
    (path v m : String) (ms : List String) :
    t.setFrom path v n (m :: ms) = (t.setChild n (c.setFrom path v m ms).1, (c.setFrom path v m ms).2) := by
  have hv : (t.value? n).isSome = false := by
    cases hv : t.value? n with
    | none => rfl
    | some w => simp [h.child?_eq_none hv] at hc
  simp [Tree.setFrom, hc, hv]

/-- A write to the sub-tree at the end of names is a write to the tree at the end of all names. -/
theorem WellFormed.withinFrom_setFrom {t : Tree} (h : t.WellFormed) {n : String} {ns : List String}
    (hs : (t.subFrom n ns).isSome) (path v m : String) (ms : List String) :
    t.withinFrom (fun c => c.setFrom path v m ms) n ns = t.setFrom path v n (ns ++ m :: ms) := by
  induction ns generalizing t n with
  | nil =>
    obtain ⟨c, hc⟩ := Option.isSome_iff_exists.mp hs
    rw [subFrom] at hc
    rw [withinFrom_nil hc, List.nil_append, h.setFrom_of_child? hc]
  | cons k ks ih =>
    rw [subFrom] at hs
    cases hc : t.child? n with
    | none => simp [hc] at hs
    | some c =>
      rw [hc, Option.bind_some] at hs
      have hcw := (h.of_mem_subs (h.child?_eq_some_iff.mp hc)).1
      rw [withinFrom_cons hc, ih hcw hs, List.cons_append, h.setFrom_of_child? hc]

/-- A write to the sub-tree at a path is a write to the tree at the two paths with a dot between them. -/
theorem WellFormed.within_set {t : Tree} (h : t.WellFormed) {s : String} (hs : t.hasSub s = true) (p v : String) :
    (t.within s (·.set p v)).1 = (t.set (s ++ "." ++ p) v).1 ∧
      ((t.within s (·.set p v)).2 = none ↔ (t.set (s ++ "." ++ p) v).2 = none) := by
  have hw : t.within s (·.set p v) = t.setFrom p v (Path.ofString s).first
      ((Path.ofString s).rest ++ (Path.ofString p).first :: (Path.ofString p).rest) :=
    h.withinFrom_setFrom hs p v _ _
  have hnames := names_ofString (s ++ "." ++ p)
  rw [segments_append_dot, ← names_ofString s, ← names_ofString p, List.cons_append, List.cons.injEq] at hnames
  have hset : t.set (s ++ "." ++ p) v = t.setFrom (s ++ "." ++ p) v (Path.ofString s).first
      ((Path.ofString s).rest ++ (Path.ofString p).first :: (Path.ofString p).rest) := by
    rw [Tree.set, hnames.1, hnames.2]
  rw [hw, hset]
  exact setFrom_congr _ _ _ _ _ _

/-- Acting below a sub-tree of a sub-tree is acting below the sub-tree at all names. -/
theorem withinFrom_append {α : Type} (act : Tree → Tree × α) (t : Tree) (n m : String) (ns ms : List String)
    (hs : (t.subFrom n ns).isSome) :
    t.withinFrom (fun c => c.withinFrom act m ms) n ns = t.withinFrom act n (ns ++ m :: ms) := by
  induction ns generalizing t n with
  | nil =>
    obtain ⟨c, hc⟩ := Option.isSome_iff_exists.mp hs
    rw [subFrom] at hc
    rw [withinFrom_nil hc, List.nil_append, withinFrom_cons hc]
  | cons k ks ih =>
    rw [subFrom] at hs
    cases hc : t.child? n with
    | none => simp [hc] at hs
    | some c =>
      rw [hc, Option.bind_some] at hs
      rw [withinFrom_cons hc, ih c k hs, List.cons_append, withinFrom_cons hc]

/-- A sub-tree of the sub-tree at a path is the one at the two paths with a dot between them. -/
theorem within_within {α : Type} {t : Tree} {s : String} (hs : t.hasSub s = true) (r : String) (act : Tree → Tree × α) :
    t.within s (·.within r act) = t.within (s ++ "." ++ r) act := by
  have hnames := names_ofString (s ++ "." ++ r)
  rw [segments_append_dot, ← names_ofString s, ← names_ofString r, List.cons_append, List.cons.injEq] at hnames
  have hw : t.within s (·.within r act) = t.withinFrom act (Path.ofString s).first
      ((Path.ofString s).rest ++ (Path.ofString r).first :: (Path.ofString r).rest) :=
    withinFrom_append act t _ _ _ _ hs
  rw [hw, within, hnames.1, hnames.2]

/-! ## Reachable trees -/

/-- An act that writes one value, to the tree itself or below one of its sub-trees. -/
inductive IsWrite : (Tree → Tree × Option TreeError) → Prop
  | set (path value : String) : IsWrite (·.set path value)
  | within (path : String) {act : Tree → Tree × Option TreeError} (h : IsWrite act) : IsWrite (·.within path act)

/-- The trees that writes make of the empty tree, whether each of the writes succeeds or not. -/
inductive Reachable : Tree → Prop
  | empty : Reachable Tree.empty
  | write {t : Tree} {act : Tree → Tree × Option TreeError} (h : Reachable t) (ha : IsWrite act) : Reachable (act t).1

/-- The nodes of a tree: the tree itself, and the nodes of its sub-trees. -/
inductive IsNode (t : Tree) : Tree → Prop
  | top : IsNode t t
  | inside {s c : Tree} {n : String} (h : IsNode t s) (hc : s.child? n = some c) : IsNode t c

theorem set_ne_empty {t : Tree} (h : t ≠ empty) (p v : String) : (t.set p v).1 ≠ empty := by
  by_cases ok : (t.set p v).2 = none
  · exact setFrom_ne_empty ok
  · rw [set_eq_self ok]
    exact h

/-- Putting a tree that is not empty in the place of a sub-tree keeps a tree well formed. -/
theorem WellFormed.setChild_of_child? {t c d : Tree} (h : t.WellFormed) {n : String} (hc : t.child? n = some c)
    (hd : d.WellFormed ∧ d ≠ empty) : (t.setChild n d).WellFormed := by
  have hn : n ∈ t.subNames := List.mem_map.mpr ⟨_, h.child?_eq_some_iff.mp hc, rfl⟩
  have hv : n ∉ t.valueNames := fun hv => h.not_mem_subNames hv hn
  exact h.setChild (h.dotFree_of_mem_subNames hn) hv hd.1 hd.2

/-- Acting below a sub-tree keeps a tree well formed if the act keeps trees well formed and does not make them empty. -/
theorem WellFormed.withinFrom {α : Type} {act : Tree → Tree × α}
    (ha : ∀ c : Tree, c.WellFormed → c ≠ empty → (act c).1.WellFormed ∧ (act c).1 ≠ empty) {t : Tree} (h : t.WellFormed)
    (n : String) (ns : List String) :
    (t.withinFrom act n ns).1.WellFormed ∧ (t ≠ empty → (t.withinFrom act n ns).1 ≠ empty) := by
  induction ns generalizing t n with
  | nil =>
    cases hc : t.child? n with
    | none =>
      rw [withinFrom_none hc]
      exact ⟨h, id⟩
    | some c =>
      obtain ⟨hcw, hce⟩ := h.of_mem_subs (h.child?_eq_some_iff.mp hc)
      rw [withinFrom_nil hc]
      exact ⟨h.setChild_of_child? hc (ha c hcw hce), fun _ => setChild_ne_empty _ _ _⟩
  | cons m ms ih =>
    cases hc : t.child? n with
    | none =>
      rw [withinFrom_none hc]
      exact ⟨h, id⟩
    | some c =>
      obtain ⟨hcw, hce⟩ := h.of_mem_subs (h.child?_eq_some_iff.mp hc)
      obtain ⟨hw, he⟩ := ih hcw m
      rw [withinFrom_cons hc]
      exact ⟨h.setChild_of_child? hc ⟨hw, he hce⟩, fun _ => setChild_ne_empty _ _ _⟩

/-- An act that writes keeps trees well formed, and does not make them empty. -/
theorem IsWrite.wellFormed {act : Tree → Tree × Option TreeError} (ha : IsWrite act) {t : Tree} (h : t.WellFormed) :
    (act t).1.WellFormed ∧ (t ≠ empty → (act t).1 ≠ empty) := by
  induction ha generalizing t with
  | set p v => exact ⟨h.set p v, fun hne => set_ne_empty hne p v⟩
  | within s _ ih => exact h.withinFrom (fun c hc hne => ⟨(ih hc).1, (ih hc).2 hne⟩) _ _

/-- Every reachable tree is well formed. -/
theorem Reachable.wellFormed {t : Tree} (h : Reachable t) : t.WellFormed := by
  induction h with
  | empty => exact wellFormed_empty
  | write _ ha ih => exact (ha.wellFormed ih).1

/-- Every node of a well-formed tree is well formed. -/
theorem WellFormed.of_isNode {t s : Tree} (h : t.WellFormed) (hs : IsNode t s) : s.WellFormed := by
  induction hs with
  | top => exact h
  | inside _ hc ih => exact (ih.of_mem_subs (ih.child?_eq_some_iff.mp hc)).1

/-! ## The map of a tree -/

/-- What it means that a tree is a finite map from paths to values in which no path stands above another. -/
structure IsMap (t : Tree) : Prop where
  /-- No path of the map stands above another one. -/
  prefixFree : PrefixFree t.IsLeaf
  /-- A value cannot be written exactly where a path of the map stands above the path, or below it. -/
  set_fails : ∀ p v, (∃ e, (t.set p v).2 = some e) ↔ ∃ q, t.IsLeaf q ∧ (IsAbove q p ∨ IsAbove p q)
  /-- A value that was written is read. -/
  get_set : ∀ p v, (t.set p v).2 = none → (t.set p v).1.get? p = some v
  /-- A value that was written changes nothing for other paths. -/
  get_set_other : ∀ p v q, (t.set p v).2 = none → q ≠ p →
    (t.set p v).1.get? q = t.get? q ∧ (t.set p v).1.hasKey q = t.hasKey q
  /-- A write to a sub-tree is a write to the tree at the path of the sub-tree and the path below it. -/
  within_set : ∀ s p v, t.hasSub s = true →
    (t.within s (·.set p v)).1 = (t.set (s ++ "." ++ p) v).1 ∧
      ((t.within s (·.set p v)).2 = none ↔ (t.set (s ++ "." ++ p) v).2 = none)
  /-- A sub-tree of a sub-tree is a sub-tree of the tree. -/
  within_within : ∀ (s r : String) (act : Tree → Tree × Option TreeError), t.hasSub s = true →
    t.within s (·.within r act) = t.within (s ++ "." ++ r) act
  /-- There are values at the leaves. -/
  hasKey_iff : ∀ p, t.hasKey p = true ↔ t.IsLeaf p
  /-- There are sub-trees above the leaves. -/
  hasSub_iff : ∀ p, t.hasSub p = true ↔ ∃ q, t.IsLeaf q ∧ IsAbove p q
  /-- Every leaf is listed. -/
  mem_keys : ∀ p, p ∈ t.keys ↔ t.IsLeaf p
  /-- No leaf is listed twice. -/
  nodup_keys : t.keys.Nodup
  /-- The size is the number of leaves. -/
  size_eq : t.size = Set.ncard {p | t.IsLeaf p}
  /-- A tree is empty unless it has a leaf. -/
  nonempty_iff : t.isEmpty = false ↔ ∃ p, t.IsLeaf p
  /-- No name is that of a leaf and of a sub-tree of the same node. -/
  disjoint : ∀ s n, IsNode t s → ¬((s.value? n).isSome = true ∧ (s.child? n).isSome = true)
  /-- The dictionary of the tree has every leaf. -/
  mem_toDict : ∀ l v, (l, v) ∈ t.toDict.entries ↔ t.HasLeaf l v

/-- A reachable tree is a map. -/
theorem Reachable.isMap {t : Tree} (h : Reachable t) : IsMap t := by
  have hw := h.wellFormed
  refine
    { prefixFree := hw.prefixFree
      set_fails := ?_
      get_set := ?_
      get_set_other := ?_
      within_set := fun s p v hs => hw.within_set hs p v
      within_within := fun s r act hs => Tree.within_within hs r act
      hasKey_iff := fun p => hw.hasKey_iff
      hasSub_iff := fun p => hw.hasSub_iff
      mem_keys := fun p => Tree.mem_keys
      nodup_keys := hw.nodup_keys
      size_eq := ?_
      nonempty_iff := ?_
      disjoint := ?_
      mem_toDict := ?_ }
  · intro p v
    rw [← hw.set_failed_iff, Option.ne_none_iff_exists']
  · intro p v ok
    rw [get?_set ok, if_pos rfl]
  · intro p v q ok hq
    have hget : (t.set p v).1.get? q = t.get? q := by rw [get?_set ok, if_neg hq]
    exact ⟨hget, by rw [hasKey, hasKey, hget]⟩
  · have hset : {p | t.IsLeaf p} = (t.keys.toFinset : Set String) := by
      ext p
      simp [Tree.mem_keys]
    rw [hset, Set.ncard_coe_finset, List.toFinset_card_of_nodup hw.nodup_keys, size]
  · rw [← hw.ne_empty_iff, ne_eq, ← isEmpty_eq_true_iff, Bool.not_eq_true]
  · rintro s n hs ⟨hv, hc⟩
    obtain ⟨v, hv⟩ := Option.isSome_iff_exists.mp hv
    rw [(hw.of_isNode hs).child?_eq_none hv] at hc
    simp at hc
  · intro l v
    rw [hw.entries_toDict, mem_entries]

/-- A write of the tree, one that fails, and one of a sub-tree. -/
theorem isMap_of_three_writes :
    IsMap (branch "Newton" (leaves [("Tolerance", "1e-8"), ("MaxIterations", "20")]) (leaves [])) := by
  have first : Reachable (empty.set "Newton.Tolerance" "1e-8").1 := .write .empty (.set _ _)
  have second := first.write (.set "Newton" "on")
  have third := second.write (.within "Newton" (.set "MaxIterations" "20"))
  exact third.isMap

end RunParams.Tree

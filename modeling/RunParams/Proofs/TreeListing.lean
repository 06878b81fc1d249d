import RunParams.Proofs.TreeLeaves

/-!
# Listing the leaves of trees

The keys of a tree and its dictionary both list every leaf once, in the same order: the leaves of a node come before those of its
sub-trees.
-/

namespace RunParams

namespace Tree

/-! ## Leaves in their order -/

/-- A leaf of the top node as a list of one name with a value. -/
def ownEntry (p : String × String) : List String × String :=
  ([p.1], p.2)

/-- A leaf of a sub-tree as a leaf of the tree. -/
def entryBelow (name : String) (e : List String × String) : List String × String :=
  (name :: e.1, e.2)

/-- The leaves below the sub-trees of the top node with the names on the way to them. -/
def subEntries : Tree → List (List String × String)
  | leaves _ => []
  | branch name child rest => (child.values.map ownEntry ++ child.subEntries).map (entryBelow name) ++ rest.subEntries

/-- The leaves of a tree with the names on the way to them. -/
def entries (t : Tree) : List (List String × String) :=
  t.values.map ownEntry ++ t.subEntries

@[simp] theorem subEntries_leaves (vs : List (String × String)) : (leaves vs).subEntries = [] := rfl

@[simp] theorem subEntries_branch (n : String) (c r : Tree) :
    (branch n c r).subEntries = c.entries.map (entryBelow n) ++ r.subEntries := rfl

theorem entries_eq (t : Tree) : t.entries = t.values.map ownEntry ++ t.subEntries := rfl

theorem mem_subEntries {t : Tree} {l : List String} {v : String} :
    (l, v) ∈ t.subEntries ↔ ∃ n c m, (n, c) ∈ t.subs ∧ l = n :: m ∧ (m, v) ∈ c.entries := by
  induction t with
  | leaves vs => simp only [subEntries_leaves, subs_leaves, List.not_mem_nil, false_and, exists_false]
  | branch n c r _ ih =>
    rw [subEntries_branch, List.mem_append, ih]
    constructor
    · rintro (h | ⟨k, d, m, hd, rfl, hm⟩)
      · obtain ⟨⟨m, w⟩, hm, e⟩ := List.mem_map.mp h
        obtain ⟨rfl, rfl⟩ := Prod.mk.inj e
        exact ⟨n, c, m, by simp, rfl, hm⟩
      · exact ⟨k, d, m, List.mem_cons_of_mem _ hd, rfl, hm⟩
    · rintro ⟨k, d, m, hd, rfl, hm⟩
      rcases List.mem_cons.mp hd with e | hd
      · obtain ⟨rfl, rfl⟩ := Prod.mk.inj e
        exact .inl (List.mem_map.mpr ⟨(m, v), hm, rfl⟩)
      · exact .inr ⟨k, d, m, hd, rfl, hm⟩

/-- The leaves that are listed are the leaves of the tree. -/
theorem mem_entries {t : Tree} {l : List String} {v : String} : (l, v) ∈ t.entries ↔ t.HasLeaf l v := by
  constructor
  · intro h
    induction l generalizing t with
    | nil =>
      rcases List.mem_append.mp h with h | h
      · obtain ⟨p, -, e⟩ := List.mem_map.mp h
        simp [ownEntry] at e
      · obtain ⟨n, c, m, -, e, -⟩ := mem_subEntries.mp h
        simp at e
    | cons k l ih =>
      rcases List.mem_append.mp h with h | h
      · obtain ⟨⟨n, w⟩, hp, e⟩ := List.mem_map.mp h
        simp only [ownEntry, Prod.mk.injEq, List.cons.injEq] at e
        obtain ⟨⟨rfl, rfl⟩, rfl⟩ := e
        exact .direct hp
      · obtain ⟨n, c, m, hc, e, hm⟩ := mem_subEntries.mp h
        obtain ⟨rfl, rfl⟩ := List.cons.inj e
        exact .inside hc (ih hm)
  · intro h
    induction h with
    | direct h => exact List.mem_append_left _ (List.mem_map.mpr ⟨_, h, rfl⟩)
    | inside hc _ ih => exact List.mem_append_right _ (mem_subEntries.mpr ⟨_, _, _, hc, rfl, ih⟩)

/-- The keys below the sub-trees are the names on the way to their leaves with dots between them. -/
theorem subKeys_eq (lead : String) (t : Tree) : t.subKeys lead = t.subEntries.map fun e => lead ++ dotted e.1 := by
  induction t generalizing lead with
  | leaves vs => rfl
  | branch n c r ihc ihr =>
    have below : ∀ e ∈ c.entries, lead ++ n ++ "." ++ dotted e.1 = lead ++ dotted (n :: e.1) := by
      intro e he
      have hne : e.1 ≠ [] := (mem_entries.mp he).ne_nil
      rw [dotted, dotted, String.intercalate_cons_of_ne_nil hne]
      simp only [String.append_assoc]
    have hown : ∀ p : String × String, lead ++ n ++ "." ++ p.1 = lead ++ n ++ "." ++ dotted (ownEntry p).1 := by
      intro p
      simp [ownEntry, dotted]
    have hc : (c.values.map (lead ++ n ++ "." ++ ·.1)) ++ c.subKeys (lead ++ n ++ ".") =
        (c.entries.map (entryBelow n)).map fun e => lead ++ dotted e.1 := by
      rw [ihc, entries_eq, List.map_congr_left fun p _ => hown p]
      rw [show (c.values.map fun p => lead ++ n ++ "." ++ dotted (ownEntry p).1) =
        (c.values.map ownEntry).map fun e => lead ++ n ++ "." ++ dotted e.1 by rw [List.map_map]; rfl]
      rw [← List.map_append, ← entries_eq, List.map_map]
      exact List.map_congr_left below
    rw [subKeys, subEntries_branch, List.map_append, ihr]
    exact congrArg (· ++ _) hc

/-- The keys of a tree are the names on the way to its leaves with dots between them. -/
theorem keys_eq (t : Tree) : t.keys = t.entries.map fun e => dotted e.1 := by
  have hown : ∀ p : String × String, "" ++ p.1 = dotted (ownEntry p).1 := by
    intro p
    simp [ownEntry, dotted]
  have hsub : t.subKeys "" = t.subEntries.map fun e => dotted e.1 := by
    rw [subKeys_eq]
    simp
  rw [keys, flatten, entries_eq, List.map_append, hsub, List.map_map]
  exact congrArg (· ++ _) (List.map_congr_left fun p _ => hown p)

namespace WellFormed

variable {t : Tree}

/-- Where the paths of the leaves below the sub-trees differ from each other, those of all leaves do. -/
theorem nodup_entries_of_subEntries (h : t.WellFormed) (hs : (t.subEntries.map (·.1)).Nodup) :
    (t.entries.map (·.1)).Nodup := by
  rw [entries_eq, List.map_append, List.nodup_append]
  refine ⟨?_, hs, ?_⟩
  · have hinj : Function.Injective fun n : String => [n] := fun a b e => (List.cons.inj e).1
    have := h.nodup_valueNames.map hinj
    simpa [valueNames, ownEntry, Function.comp_def] using this
  · rintro l hl m hm rfl
    obtain ⟨e, he, rfl⟩ := List.mem_map.mp hl
    obtain ⟨p, -, rfl⟩ := List.mem_map.mp he
    obtain ⟨⟨_, w⟩, hw, e⟩ := List.mem_map.mp hm
    obtain ⟨k, d, s, -, rfl, hs⟩ := mem_subEntries.mp hw
    have hnil : s = [] := (List.cons.inj e).2
    exact (mem_entries.mp hs).ne_nil hnil

theorem nodup_subEntries (h : t.WellFormed) : (t.subEntries.map (·.1)).Nodup := by
  induction t with
  | leaves vs => exact List.nodup_nil
  | branch n c r ihc ihr =>
    obtain ⟨-, -, hns, -, hc, hr⟩ := h
    rw [subEntries_branch, List.map_append, List.nodup_append]
    refine ⟨?_, ihr hr, ?_⟩
    · have hinj : Function.Injective fun l : List String => n :: l := fun a b e => (List.cons.inj e).2
      have := (hc.nodup_entries_of_subEntries (ihc hc)).map hinj
      simpa [entryBelow, Function.comp_def] using this
    · rintro l hl m hm rfl
      obtain ⟨e, he, rfl⟩ := List.mem_map.mp hl
      obtain ⟨f, -, rfl⟩ := List.mem_map.mp he
      obtain ⟨⟨_, w⟩, hw, e'⟩ := List.mem_map.mp hm
      obtain ⟨k, d, s, hd, rfl, -⟩ := mem_subEntries.mp hw
      have hkn : k = n := (List.cons.inj e').1
      exact hns (List.mem_map.mpr ⟨_, hkn ▸ hd, rfl⟩)

/-- No two leaves have the same path. -/
theorem nodup_entries (h : t.WellFormed) : (t.entries.map (·.1)).Nodup :=
  h.nodup_entries_of_subEntries h.nodup_subEntries

/-- No key is listed twice. -/
theorem nodup_keys (h : t.WellFormed) : t.keys.Nodup := by
  rw [keys_eq, ← Function.comp_def, ← List.map_map]
  apply h.nodup_entries.map_on
  have leaf : ∀ l ∈ t.entries.map (·.1), l ≠ [] ∧ ∀ n ∈ l, DotFree n := by
    intro l hl
    obtain ⟨⟨_, v⟩, he, rfl⟩ := List.mem_map.mp hl
    exact ⟨(mem_entries.mp he).ne_nil, h.dotFree_of_hasLeaf (mem_entries.mp he)⟩
  intro l hl m hm e
  exact (dotted_inj (leaf l hl).2 (leaf m hm).2 (leaf l hl).1 (leaf m hm).1).mp e

end WellFormed

/-- The keys are the paths of the leaves. -/
theorem mem_keys {t : Tree} {p : String} : p ∈ t.keys ↔ t.IsLeaf p := by
  rw [keys_eq, List.mem_map]
  constructor
  · rintro ⟨⟨l, v⟩, he, rfl⟩
    exact ⟨l, v, mem_entries.mp he, rfl⟩
  · rintro ⟨l, v, hl, rfl⟩
    exact ⟨(l, v), mem_entries.mpr hl, rfl⟩

end Tree

/-! ## The dictionary of a tree -/

namespace Dictionary

/-- The texts of a dictionary with the names on the way to them. -/
def entries : Dictionary → List (List String × String)
  | nil => []
  | text n v rest => ([n], v) :: rest.entries
  | nested n inner rest => inner.entries.map (Tree.entryBelow n) ++ rest.entries

/-- The names of the entries of a dictionary. -/
def names : Dictionary → List String
  | nil => []
  | text n _ rest => n :: rest.names
  | nested n _ rest => n :: rest.names

@[simp] theorem entries_nil : nil.entries = [] := rfl

@[simp] theorem entries_text (n v : String) (rest : Dictionary) : (text n v rest).entries = ([n], v) :: rest.entries := rfl

@[simp] theorem entries_nested (n : String) (inner rest : Dictionary) :
    (nested n inner rest).entries = inner.entries.map (Tree.entryBelow n) ++ rest.entries := rfl

@[simp] theorem names_nil : nil.names = [] := rfl

@[simp] theorem names_text (n v : String) (rest : Dictionary) : (text n v rest).names = n :: rest.names := rfl

@[simp] theorem names_nested (n : String) (inner rest : Dictionary) : (nested n inner rest).names = n :: rest.names := rfl

theorem entries_ofValues (vs : List (String × String)) : (ofValues vs).entries = vs.map Tree.ownEntry := by
  induction vs with
  | nil => rfl
  | cons p vs ih => simp [ofValues, Tree.ownEntry, ih]

theorem names_ofValues (vs : List (String × String)) : (ofValues vs).names = vs.map (·.1) := by
  induction vs with
  | nil => rfl
  | cons p vs ih => simp [ofValues, ih]

/-- A dictionary with a new name comes behind all entries. -/
theorem put_new {d : Dictionary} {n : String} (h : n ∉ d.names) (inner : Dictionary) :
    (d.put n inner).entries = d.entries ++ inner.entries.map (Tree.entryBelow n) ∧
      (d.put n inner).names = d.names ++ [n] := by
  induction d with
  | nil => simp [put]
  | text m v rest ih =>
    simp only [names_text, List.mem_cons, not_or] at h
    obtain ⟨he, hn⟩ := ih h.2
    have hm : ¬m = n := fun e => h.1 e.symm
    rw [put, if_neg hm]
    simp [he, hn]
  | nested m d rest _ ih =>
    simp only [names_nested, List.mem_cons, not_or] at h
    obtain ⟨he, hn⟩ := ih h.2
    have hm : ¬m = n := fun e => h.1 e.symm
    rw [put, if_neg hm]
    simp [he, hn]

end Dictionary

namespace Tree

/-- The sub-trees are put behind a dictionary that has none of their names. -/
theorem entries_putSubs {t : Tree} (h : t.WellFormed) {done : Dictionary} (hd : ∀ n ∈ t.subNames, n ∉ done.names) :
    (t.putSubs done).entries = done.entries ++ t.subEntries := by
  induction t generalizing done with
  | leaves vs => simp [putSubs]
  | branch n c r ihc ihr =>
    obtain ⟨-, -, hns, -, hc, hr⟩ := h
    have hchild : (c.putSubs (.ofValues c.values)).entries = c.values.map ownEntry ++ c.subEntries := by
      rw [ihc hc, Dictionary.entries_ofValues]
      intro m hm hv
      rw [Dictionary.names_ofValues] at hv
      exact hc.not_mem_subNames hv hm
    obtain ⟨he, hn⟩ := Dictionary.put_new (hd n (by simp [subNames])) (c.putSubs (.ofValues c.values))
    rw [putSubs, ihr hr, he, hchild, subEntries_branch, ← entries_eq, List.append_assoc]
    intro m hm
    rw [hn, List.mem_append, List.mem_singleton, not_or]
    exact ⟨hd m (List.mem_cons_of_mem _ hm), fun e => hns (e ▸ hm)⟩

/-- The dictionary of a tree has all leaves of the tree, in their order, and nothing else. -/
theorem WellFormed.entries_toDict {t : Tree} (h : t.WellFormed) : t.toDict.entries = t.entries := by
  rw [toDict, entries_putSubs h, Dictionary.entries_ofValues, entries_eq]
  intro n hn hv
  rw [Dictionary.names_ofValues] at hv
  exact h.not_mem_subNames hv hn

end Tree

end RunParams

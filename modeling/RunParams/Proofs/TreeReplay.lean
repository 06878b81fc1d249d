import RunParams.Proofs.BatchWrites

/-!
# Replaying the leaves of a tree

Writing the values of a tree to the empty tree, one key after the other in the order in which they are listed, makes the same tree
again, with all names in their order: the leaves of a node are listed first, and its sub-trees in the order in which they came.
-/

namespace RunParams

namespace Document

/-! ## Writes after writes -/

/-- Writes behind writes that succeed go on in the tree that those leave. -/
theorem writeEntries_append {overwrite : Bool} {t u : Tree} {first : List (String × String)}
    (h : writeEntries overwrite t first = (u, none)) (second : List (String × String)) :
    writeEntries overwrite t (first ++ second) = writeEntries overwrite u second := by
  induction first generalizing t with
  | nil =>
    cases h
    rfl
  | cons e first ih =>
    obtain ⟨path, value⟩ := e
    obtain ⟨ok, hmore⟩ := writeEntries_cons_eq_iff.mp h
    rw [List.cons_append, writeEntries_cons _ ok, ih hmore]

/-- Where no path has a value yet and none is written twice, no value is kept. -/
theorem writeEntries_of_fresh {t u : Tree} {entries : List (String × String)} (hn : (entries.map (·.1)).Nodup)
    (hfresh : ∀ p ∈ entries.map (·.1), t.get? p = none) (h : writeEntries true t entries = (u, none)) (overwrite : Bool) :
    writeEntries overwrite t entries = (u, none) := by
  induction entries generalizing t with
  | nil => exact h
  | cons e entries ih =>
    obtain ⟨path, value⟩ := e
    obtain ⟨hnew, hn⟩ := List.nodup_cons.mp hn
    obtain ⟨ok, hmore⟩ := writeEntries_cons_eq_iff.mp h
    have hwrite : write overwrite t path value = write true t path value := by
      have hnone : t.get? path = none := hfresh path (by simp)
      simp [write, Tree.hasKey, hnone]
    rw [writeEntries_cons_eq_iff, hwrite]
    refine ⟨ok, ih hn (fun q hq => ?_) hmore⟩
    have hne : q ≠ path := fun e => hnew (e ▸ hq)
    rw [get?_write ok]
    simp [hne, hfresh q (List.mem_cons_of_mem _ hq)]

end Document

namespace Tree

open Document

/-! ## Writing leaves -/

@[simp] theorem get?_empty (p : String) : empty.get? p = none := by
  rw [get?]
  cases (Path.ofString p).rest <;> rfl

/-- A value at a new name without dots comes behind all leaves. -/
theorem set_leaves {vs : List (String × String)} {name : String} (hd : DotFree name) (hnew : name ∉ vs.map (·.1))
    (value : String) : (leaves vs).set name value = (leaves (vs ++ [(name, value)]), none) := by
  have hput : putValue name value vs = vs ++ [(name, value)] := by
    induction vs with
    | nil => rfl
    | cons p vs ih =>
      obtain ⟨hp, hnew⟩ := not_or.mp (fun h => hnew (List.mem_cons.mpr h))
      have hne : ¬p.1 = name := fun e => hp e.symm
      rw [putValue, if_neg hne, ih hnew]
      rfl
  rw [set, ofString_of_dotFree hd, setFrom]
  simp only [child?_leaves, Option.isSome_none, Bool.false_eq_true, if_false, setValue, hput]

/-- Values at new names without dots come behind all leaves, in their order. -/
theorem writeEntries_leaves {done vs : List (String × String)} (hd : ∀ p ∈ vs, DotFree p.1)
    (hn : ((done ++ vs).map (·.1)).Nodup) : writeEntries true (leaves done) vs = (leaves (done ++ vs), none) := by
  induction vs generalizing done with
  | nil => simp [writeEntries]
  | cons p vs ih =>
    obtain ⟨name, value⟩ := p
    have hnew : name ∉ done.map (·.1) := by
      rw [List.map_append, List.nodup_append] at hn
      exact fun hmem => hn.2.2 name hmem name (by simp) rfl
    have hset : write true (leaves done) name value = (leaves (done ++ [(name, value)]), none) :=
      set_leaves (hd (name, value) (by simp)) hnew value
    have hsplit : done ++ (name, value) :: vs = done ++ [(name, value)] ++ vs := by simp
    rw [hsplit] at hn ⊢
    rw [writeEntries_cons _ (by rw [hset]), hset]
    exact ih (fun q hq => hd q (List.mem_cons_of_mem _ hq)) hn

/-! ## Writing below a name -/

/-- A value can be written below a name that has none where it can be written to the sub-tree of the name, and changes only
this sub-tree. -/
theorem set_below {t : Tree} {n p v : String} (hn : DotFree n) (hv : n ∉ t.valueNames)
    (ok : (((t.child? n).getD empty).set p v).2 = none) :
    t.set (n ++ "." ++ p) v = (t.setChild n (((t.child? n).getD empty).set p v).1, none) := by
  have hnames := names_ofString (n ++ "." ++ p)
  rw [segments_append_dot, segments_of_dotFree hn, List.singleton_append, ← names_ofString p, List.cons.injEq] at hnames
  have hvalue : (t.value? n).isSome = false := by
    rw [value?_eq_none_iff.mpr hv]
    rfl
  obtain ⟨htree, herror⟩ := setFrom_congr (n ++ "." ++ p) p v (Path.ofString p).first (Path.ofString p).rest
    ((t.child? n).getD empty)
  simp only [set, hnames.1, hnames.2, setFrom, hvalue, Bool.false_eq_true, if_false, htree, herror.mpr ok]

/-- Writes below a name that has no value, the first of which there is, make of its sub-tree what they make of the sub-tree by
itself. -/
theorem writeEntries_below {t c : Tree} {n : String} (hn : DotFree n) (hv : n ∉ t.valueNames)
    {entries : List (String × String)} (hne : entries ≠ [])
    (h : writeEntries true ((t.child? n).getD empty) entries = (c, none)) :
    writeEntries true t (entries.map fun e => (n ++ "." ++ e.1, e.2)) = (t.setChild n c, none) := by
  induction entries generalizing t with
  | nil => exact absurd rfl hne
  | cons e entries ih =>
    obtain ⟨p, v⟩ := e
    obtain ⟨ok, hrest⟩ : (((t.child? n).getD empty).set p v).2 = none ∧
        writeEntries true (((t.child? n).getD empty).set p v).1 entries = (c, none) := writeEntries_cons_eq_iff.mp h
    have hset : write true t (n ++ "." ++ p) v = _ := set_below hn hv ok
    rw [List.map_cons, writeEntries_cons _ (by rw [hset]), hset]
    by_cases hnil : entries = []
    · subst hnil
      cases hrest
      rfl
    · have hv' : n ∉ (t.setChild n (((t.child? n).getD empty).set p v).1).valueNames := by
        rw [valueNames, values_setChild]
        exact hv
      rw [ih hv' hnil (by rw [child?_setChild, if_pos rfl]; exact hrest), setChild_setChild]

/-! ## Sub-trees in front of a tree -/

/-- A tree with further sub-trees in front of its own. -/
def graft (subs : List (String × Tree)) (t : Tree) : Tree :=
  subs.foldr (fun s rest => branch s.1 s.2 rest) t

theorem graft_cons (s : String × Tree) (subs : List (String × Tree)) (t : Tree) :
    graft (s :: subs) t = branch s.1 s.2 (graft subs t) := rfl

theorem graft_concat (subs : List (String × Tree)) (n : String) (c t : Tree) :
    graft (subs ++ [(n, c)]) t = graft subs (branch n c t) := by
  simp [graft]

@[simp] theorem values_graft (subs : List (String × Tree)) (t : Tree) : (graft subs t).values = t.values := by
  induction subs with
  | nil => rfl
  | cons s subs ih => simp [graft_cons, ih]

@[simp] theorem subs_graft (subs : List (String × Tree)) (t : Tree) : (graft subs t).subs = subs ++ t.subs := by
  induction subs with
  | nil => rfl
  | cons s subs ih => simp [graft_cons, ih]

/-- A sub-tree with a new name comes behind all sub-trees. -/
theorem setChild_graft {subs : List (String × Tree)} {n : String} (hn : n ∉ subs.map (·.1)) (c : Tree)
    (vs : List (String × String)) : (graft subs (leaves vs)).setChild n c = graft (subs ++ [(n, c)]) (leaves vs) := by
  induction subs with
  | nil => rfl
  | cons s subs ih =>
    obtain ⟨hs, hn⟩ := not_or.mp (fun h => hn (List.mem_cons.mpr h))
    have hne : ¬s.1 = n := fun e => hs e.symm
    rw [graft_cons, setChild, if_neg hne, ih hn]
    rfl

/-! ## All leaves -/

/-- A leaf's path as a text with its value. -/
def assignment (e : List String × String) : String × String :=
  (dotted e.1, e.2)

/-- The paths of all leaves with their values, in the order of the keys. -/
def assignments (t : Tree) : List (String × String) :=
  t.entries.map assignment

theorem map_fst_assignments (t : Tree) : t.assignments.map (·.1) = t.keys := by
  rw [keys_eq, assignments, List.map_map]
  rfl

theorem map_assignment_ownEntry (vs : List (String × String)) : (vs.map ownEntry).map assignment = vs := by
  simp [assignment, ownEntry, dotted, Function.comp_def]

/-- The leaves of the top node are assigned first. -/
theorem assignments_eq_append (t : Tree) : t.assignments = t.values ++ t.subEntries.map assignment := by
  rw [assignments, entries, List.map_append, map_assignment_ownEntry]

/-- The leaves of a sub-tree are assigned below its name. -/
theorem map_assignment_entryBelow (n : String) (c : Tree) :
    (c.entries.map (entryBelow n)).map assignment = c.assignments.map fun e => (n ++ "." ++ e.1, e.2) := by
  rw [assignments, List.map_map, List.map_map]
  refine List.map_congr_left fun e he => ?_
  have hne : e.1 ≠ [] := (mem_entries.mp he).ne_nil
  simp [assignment, entryBelow, dotted, String.intercalate_cons_of_ne_nil hne]

namespace WellFormed

variable {t : Tree}

/-- What is assigned to a path is the value that the tree has there. -/
theorem mem_assignments_iff (h : t.WellFormed) {p v : String} : (p, v) ∈ t.assignments ↔ t.get? p = some v := by
  rw [h.get?_eq_some_iff]
  constructor
  · intro hp
    obtain ⟨⟨l, w⟩, he, e⟩ := List.mem_map.mp hp
    obtain ⟨rfl, rfl⟩ := Prod.mk.inj e
    have hl := mem_entries.mp he
    rw [segments_dotted (h.dotFree_of_hasLeaf hl) hl.ne_nil]
    exact hl
  · intro hl
    refine List.mem_map.mpr ⟨_, mem_entries.mpr hl, ?_⟩
    rw [assignment, dotted_segments]

/-- The assignments are the keys, each with what the tree has for it. -/
theorem assignments_eq (h : t.WellFormed) : t.assignments = t.keys.map fun k => (k, (t.get? k).getD "") := by
  rw [← map_fst_assignments, List.map_map]
  refine (List.map_id _).symm.trans (List.map_congr_left fun e he => ?_)
  simp [h.mem_assignments_iff.mp he]

theorem assignments_ne_nil (h : t.WellFormed) (hne : t ≠ empty) : t.assignments ≠ [] := by
  obtain ⟨n, l, v, hl⟩ := h.exists_hasLeaf hne
  exact List.ne_nil_of_mem (List.mem_map_of_mem (mem_entries.mpr hl))

/-- Where the leaves below the sub-trees can be replayed over the leaves of the top node, all leaves can be replayed. -/
theorem replay_of_subEntries (h : t.WellFormed)
    (hs : writeEntries true (leaves t.values) (t.subEntries.map assignment) = (t, none)) :
    writeEntries true empty t.assignments = (t, none) := by
  have hd : ∀ p ∈ t.values, DotFree p.1 := fun p hp => h.dotFree_of_mem_valueNames (List.mem_map_of_mem hp)
  have hown : writeEntries true empty t.values = (leaves t.values, none) :=
    @writeEntries_leaves [] _ hd h.nodup_valueNames
  rw [assignments_eq_append, writeEntries_append hown, hs]

/-- Over sub-trees with other names, replaying the leaves below the sub-trees of a tree puts these behind the others. -/
theorem replay_subEntries (h : t.WellFormed) {done : List (String × Tree)} (hdone : ∀ n ∈ t.subNames, n ∉ done.map (·.1)) :
    writeEntries true (graft done (leaves t.values)) (t.subEntries.map assignment) = (graft done t, none) := by
  induction t generalizing done with
  | leaves vs => rfl
  | branch n c r ihc ihr =>
    obtain ⟨hn, hnv, hns, hce, hc, hr⟩ := h
    have hnew : n ∉ done.map (·.1) := hdone n (by simp [subNames])
    -- The new sub-tree starts out empty, and its own leaves are replayed in it.
    have hchild : (graft done (leaves r.values)).child? n = none := by
      rw [child?_eq_none_iff]
      simpa [subNames] using hnew
    have hown : writeEntries true (((graft done (leaves r.values)).child? n).getD empty) c.assignments = (c, none) := by
      rw [hchild]
      exact hc.replay_of_subEntries (@ihc hc [] (by simp))
    have hvalue : n ∉ (graft done (leaves r.values)).valueNames := by
      rw [valueNames, values_graft]
      exact hnv
    have hbelow := writeEntries_below hn hvalue (hc.assignments_ne_nil hce) hown
    rw [setChild_graft hnew] at hbelow
    rw [values_branch, subEntries, ← entries, List.map_append, map_assignment_entryBelow, writeEntries_append hbelow,
      ihr hr, graft_concat]
    intro m hm
    rw [List.map_append, List.mem_append, not_or]
    refine ⟨hdone m (List.mem_cons_of_mem _ hm), ?_⟩
    simpa using fun e : m = n => hns (e ▸ hm)

/-- Writing all values of a tree to the empty tree, in the order of the keys, makes the same tree, whether values are kept or
not. -/
theorem replay (h : t.WellFormed) (overwrite : Bool) : writeEntries overwrite empty t.assignments = (t, none) := by
  have htrue := h.replay_of_subEntries (@replay_subEntries t h [] (by simp))
  refine writeEntries_of_fresh ?_ ?_ htrue overwrite
  · rw [map_fst_assignments]
    exact h.nodup_keys
  · exact fun p _ => get?_empty p

/-- Trees with the same keys and the same values at them are the same. -/
theorem eq_of_keys {u : Tree} (ht : t.WellFormed) (hu : u.WellFormed) (hkeys : u.keys = t.keys)
    (hget : ∀ k ∈ t.keys, u.get? k = t.get? k) : u = t := by
  have hassignments : u.assignments = t.assignments := by
    rw [ht.assignments_eq, hu.assignments_eq, hkeys]
    exact List.map_congr_left fun k hk => by rw [hget k hk]
  have hreplay := hu.replay true
  rw [hassignments, ht.replay true] at hreplay
  exact (congrArg Prod.fst hreplay).symm

end WellFormed

/-! ## Copying key by key -/

/-- Setting each of some keys in turn to the value that a tree has for it leads from one tree to another, and no step fails. -/
inductive Copies (source : Tree) : List String → Tree → Tree → Prop
  | done (u : Tree) : Copies source [] u u
  | step {k v : String} {ks : List String} {u w : Tree} (hget : source.get? k = some v) (ok : (u.set k v).2 = none)
      (h : Copies source ks (u.set k v).1 w) : Copies source (k :: ks) u w

theorem Copies.unique {source u v w : Tree} {ks : List String} (hv : Copies source ks u v) (hw : Copies source ks u w) :
    v = w := by
  induction hv with
  | done u =>
    cases hw
    rfl
  | step hget _ _ ih =>
    cases hw with
    | step hget' _ h =>
      obtain rfl := Option.some.inj (hget.symm.trans hget')
      exact ih h

/-- Writes of values that a tree has copy their keys. -/
theorem copies_of_writeEntries {source u w : Tree} {entries : List (String × String)}
    (hsource : ∀ e ∈ entries, source.get? e.1 = some e.2) (h : writeEntries true u entries = (w, none)) :
    Copies source (entries.map (·.1)) u w := by
  induction entries generalizing u with
  | nil =>
    cases h
    exact .done _
  | cons e entries ih =>
    obtain ⟨he, hsource⟩ := List.forall_mem_cons.mp hsource
    obtain ⟨ok, hmore⟩ := writeEntries_cons_eq_iff.mp h
    exact .step he ok (ih hsource hmore)

/-- Setting each key of a reachable tree, in the order in which they are listed, to the value that the tree has for it never fails
on the way from the empty tree, and leads to the same tree with all names at every node in their order. So the keys in their order
and their values determine the tree. -/
theorem copies_rebuild {t : Tree} (h : t.Reachable) :
    (∀ w, Copies t t.keys empty w ↔ w = t) ∧
      ∀ u : Tree, u.Reachable → u.keys = t.keys → (∀ k ∈ t.keys, u.get? k = t.get? k) → u = t := by
  have hw := h.wellFormed
  have hcopies : Copies t t.keys empty t := by
    rw [← map_fst_assignments]
    exact copies_of_writeEntries (fun e he => hw.mem_assignments_iff.mp he) (hw.replay true)
  refine ⟨fun w => ⟨fun hcopy => hcopy.unique hcopies, ?_⟩, fun u hu => hw.eq_of_keys hu.wellFormed⟩
  intro he
  rw [he]
  exact hcopies

/-- A tree that a write below a sub-tree, two writes at the top, one of which is rejected, and a write of another sub-tree made. -/
theorem copies_rebuild_of_four_writes :
    let t := branch "Newton" (branch "Line" (leaves [("Search", "on")]) (leaves [("Tolerance", "1e-8")])) (leaves [("A", "1")])
    t.Reachable ∧ Copies t ["A", "Newton.Tolerance", "Newton.Line.Search"] empty t := by
  intro t
  have hreachable : t.Reachable :=
    .write (.write (.write (.write .empty (.set "Newton.Line.Search" "on")) (.set "Newton" "off")) (.set "A" "1"))
      (.within "Newton" (.set "Tolerance" "1e-8"))
  have hkeys : t.keys = ["A", "Newton.Tolerance", "Newton.Line.Search"] := by decide +kernel
  refine ⟨hreachable, ?_⟩
  rw [← hkeys]
  exact ((copies_rebuild hreachable).1 t).mpr rfl

end Tree

end RunParams

import Mathlib.Data.List.Nodup
import RunParams.Proofs.Paths

/-!
# The shape of trees

A tree is well formed when its names have no dots, no node has a name twice, be it of a leaf or of a sub-tree, and no sub-tree is
empty. Writing keeps a tree well formed, and a write that fails leaves it as it was.
-/

namespace RunParams

/-! ## Lists of pairs -/

/-- A key is found with its value in a list of pairs without repeated keys. -/
theorem lookup_eq_some_iff_mem {α β : Type} [DecidableEq α] {l : List (α × β)} (hn : (l.map (·.1)).Nodup) {a : α} {b : β} :
    l.lookup a = some b ↔ (a, b) ∈ l := by
  rw [List.lookup_eq_some_iff]
  constructor
  · rintro ⟨l₁, l₂, rfl, -⟩
    simp
  · intro h
    obtain ⟨l₁, l₂, rfl⟩ := List.append_of_mem h
    refine ⟨l₁, l₂, rfl, ?_⟩
    intro p hp
    rw [List.map_append, List.map_cons, List.nodup_middle, List.nodup_cons] at hn
    have hne : a ≠ p.1 := by
      intro e
      apply hn.1
      rw [e]
      exact List.mem_append_left _ (List.mem_map.mpr ⟨p, hp, rfl⟩)
    simpa using hne

/-- A key that is not found is no key of the list. -/
theorem lookup_eq_none_iff_not_mem {α β : Type} [DecidableEq α] {l : List (α × β)} {a : α} :
    l.lookup a = none ↔ a ∉ l.map (·.1) := by
  rw [List.lookup_eq_none_iff, List.mem_map]
  constructor
  · rintro h ⟨p, hp, rfl⟩
    simpa using h p hp
  · intro h p hp
    have hne : a ≠ p.1 := fun e => h ⟨p, hp, e.symm⟩
    simpa using hne

/-- What is found in a list with one more pair in front. -/
theorem lookup_cons_eq {α β : Type} [DecidableEq α] (x a : α) (b : β) (l : List (α × β)) :
    ((a, b) :: l).lookup x = if x = a then some b else l.lookup x := by
  by_cases h : x = a
  · simp [h]
  · have h' : (x == a) = false := by simpa using h
    rw [List.lookup_cons, h', if_neg h]

/-- Giving a name a value changes what is found for that name only. -/
theorem lookup_putValue (name value x : String) (l : List (String × String)) :
    (putValue name value l).lookup x = if x = name then some value else l.lookup x := by
  induction l with
  | nil => rw [putValue, lookup_cons_eq]
  | cons p l ih =>
    obtain ⟨n, v⟩ := p
    by_cases hn : n = name
    · subst hn
      by_cases hx : x = n <;> simp [putValue, lookup_cons_eq, hx]
    · by_cases hx : x = n
      · subst hx
        simp [putValue, hn]
      · simp [putValue, hn, lookup_cons_eq, hx, ih]

/-- The names are those of before, and the new one behind them unless it is one of them. -/
theorem map_fst_putValue (name value : String) (l : List (String × String)) :
    (putValue name value l).map (·.1) = l.map (·.1) ++ if name ∈ l.map (·.1) then [] else [name] := by
  induction l with
  | nil => simp [putValue]
  | cons p l ih =>
    obtain ⟨n, v⟩ := p
    by_cases hn : n = name
    · simp [putValue, hn]
    · have hn' : ¬name = n := fun e => hn e.symm
      simp only [putValue, hn, if_false, List.map_cons, ih, List.mem_cons, hn', false_or, List.cons_append]

theorem putValue_ne_nil (name value : String) (l : List (String × String)) : putValue name value l ≠ [] := by
  cases l with
  | nil => simp [putValue]
  | cons p l => by_cases h : p.1 = name <;> simp [putValue, h]

namespace Tree

/-! ## Names of the top node -/

/-- The names of the leaves of the top node. -/
def valueNames (t : Tree) : List String :=
  t.values.map (·.1)

/-- The names of the sub-trees of the top node. -/
def subNames (t : Tree) : List String :=
  t.subs.map (·.1)

theorem value?_eq_none_iff {t : Tree} {n : String} : t.value? n = none ↔ n ∉ t.valueNames :=
  lookup_eq_none_iff_not_mem

theorem child?_eq_none_iff {t : Tree} {n : String} : t.child? n = none ↔ n ∉ t.subNames :=
  lookup_eq_none_iff_not_mem

@[simp] theorem values_leaves (vs : List (String × String)) : (leaves vs).values = vs := rfl

@[simp] theorem values_branch (n : String) (c r : Tree) : (branch n c r).values = r.values := rfl

@[simp] theorem subs_leaves (vs : List (String × String)) : (leaves vs).subs = [] := rfl

@[simp] theorem subs_branch (n : String) (c r : Tree) : (branch n c r).subs = (n, c) :: r.subs := rfl

@[simp] theorem child?_leaves (vs : List (String × String)) (n : String) : (leaves vs).child? n = none := rfl

/-- The first sub-tree of a node has its name. -/
theorem child?_branch (n x : String) (c r : Tree) : (branch n c r).child? x = if x = n then some c else r.child? x := by
  simp only [child?, subs_branch, lookup_cons_eq]

/-! ## Writing to the top node -/

@[simp] theorem values_setValue (n v : String) (t : Tree) : (t.setValue n v).values = putValue n v t.values := by
  induction t with
  | leaves vs => rfl
  | branch m c r _ ih => simp [setValue, ih]

@[simp] theorem subs_setValue (n v : String) (t : Tree) : (t.setValue n v).subs = t.subs := by
  induction t with
  | leaves vs => rfl
  | branch m c r _ ih => simp [setValue, ih]

theorem value?_setValue (n v x : String) (t : Tree) :
    (t.setValue n v).value? x = if x = n then some v else t.value? x := by
  simp only [value?, values_setValue, lookup_putValue]

@[simp] theorem child?_setValue (n v x : String) (t : Tree) : (t.setValue n v).child? x = t.child? x := by
  simp only [child?, subs_setValue]

@[simp] theorem values_setChild (n : String) (c t : Tree) : (t.setChild n c).values = t.values := by
  induction t with
  | leaves vs => rfl
  | branch m d r _ ih =>
    by_cases h : m = n
    · simp [setChild, h]
    · simp [setChild, h, ih]

@[simp] theorem value?_setChild (n x : String) (c t : Tree) : (t.setChild n c).value? x = t.value? x := by
  simp only [value?, values_setChild]

theorem child?_setChild (n x : String) (c t : Tree) :
    (t.setChild n c).child? x = if x = n then some c else t.child? x := by
  induction t with
  | leaves vs => simp [setChild, child?_branch]
  | branch m d r _ ih =>
    by_cases h : m = n
    · subst h
      by_cases hx : x = m <;> simp [setChild, child?_branch, hx]
    · simp only [setChild, h, if_false, child?_branch, ih]
      by_cases hx : x = m
      · subst hx
        simp [h]
      · simp [hx]

/-- Putting the sub-tree of a name in its own place changes nothing. -/
theorem setChild_child? {t c : Tree} {n : String} (h : t.child? n = some c) : t.setChild n c = t := by
  induction t with
  | leaves vs => simp at h
  | branch m d r _ ih =>
    rw [child?_branch] at h
    by_cases hm : n = m
    · simp only [hm, if_true, Option.some.injEq] at h
      simp [setChild, hm, h]
    · have hm' : ¬m = n := fun e => hm e.symm
      rw [if_neg hm] at h
      simp [setChild, hm', ih h]

/-- Of two sub-trees that are put in the place of a name, the later one stays. -/
theorem setChild_setChild (n : String) (c d t : Tree) : (t.setChild n c).setChild n d = t.setChild n d := by
  induction t with
  | leaves vs => simp [setChild]
  | branch m e r _ ih =>
    by_cases h : m = n
    · simp [setChild, h]
    · simp [setChild, h, ih]

theorem setValue_ne_empty (n v : String) (t : Tree) : t.setValue n v ≠ empty := by
  cases t with
  | leaves vs =>
    intro e
    simp only [setValue, empty, leaves.injEq] at e
    exact putValue_ne_nil n v vs e
  | branch m c r => simp [setValue, empty]

theorem setChild_ne_empty (n : String) (c t : Tree) : t.setChild n c ≠ empty := by
  cases t with
  | leaves vs => simp [setChild, empty]
  | branch m d r => by_cases h : m = n <;> simp [setChild, empty, h]

/-! ## Writing at the end of a path -/

/-- Below an empty tree nothing stands in the way of a write. -/
theorem setFrom_empty_snd (path v n : String) (ns : List String) : (empty.setFrom path v n ns).2 = none := by
  induction ns generalizing n with
  | nil => rfl
  | cons m ms ih => exact ih m

/-- A write that fails leaves the tree as it was. -/
theorem setFrom_eq_self {path v n : String} {ns : List String} {t : Tree} (h : (t.setFrom path v n ns).2 ≠ none) :
    (t.setFrom path v n ns).1 = t := by
  induction ns generalizing t n with
  | nil =>
    simp only [setFrom] at h ⊢
    split at h
    · rename_i hc
      rw [if_pos hc]
    · exact absurd rfl h
  | cons m ms ih =>
    simp only [setFrom] at h ⊢
    split at h
    · rename_i hv
      rw [if_pos hv]
    · rename_i hv
      rw [if_neg hv]
      cases hc : t.child? n with
      | none =>
        rw [hc] at h
        exact absurd (setFrom_empty_snd path v m ms) h
      | some c =>
        rw [hc] at h
        rw [ih h]
        exact setChild_child? hc

/-- The error of a write names the path, and a segment of it where a value is in the way. -/
theorem setFrom_error {path v n : String} {ns : List String} {t : Tree} {e : TreeError}
    (h : (t.setFrom path v n ns).2 = some e) : e = .isSubTree path ∨ ∃ m ∈ n :: ns, e = .valueInTheWay m path := by
  induction ns generalizing t n with
  | nil =>
    simp only [setFrom] at h
    split at h
    · exact .inl (Option.some.inj h).symm
    · cases h
  | cons m ms ih =>
    simp only [setFrom] at h
    split at h
    · exact .inr ⟨n, by simp, (Option.some.inj h).symm⟩
    · rcases ih h with rfl | ⟨k, hk, rfl⟩
      · exact .inl rfl
      · exact .inr ⟨k, List.mem_cons_of_mem _ hk, rfl⟩

/-- What a write that succeeds at the end of a path has done: it has given a leaf its value where the name is that of no
sub-tree, or else has gone on below a name that is that of no leaf. -/
theorem setFrom_nil_ok {path v n : String} {t : Tree} (h : (t.setFrom path v n []).2 = none) :
    n ∉ t.subNames ∧ (t.setFrom path v n []).1 = t.setValue n v := by
  simp only [setFrom] at h ⊢
  split at h
  · simp at h
  · rename_i hc
    refine ⟨?_, by rw [if_neg hc]⟩
    rw [← child?_eq_none_iff]
    simpa using hc

theorem setFrom_cons_ok {path v n m : String} {ms : List String} {t : Tree}
    (h : (t.setFrom path v n (m :: ms)).2 = none) :
    n ∉ t.valueNames ∧ (((t.child? n).getD empty).setFrom path v m ms).2 = none ∧
      (t.setFrom path v n (m :: ms)).1 = t.setChild n (((t.child? n).getD empty).setFrom path v m ms).1 := by
  simp only [setFrom] at h ⊢
  split at h
  · simp at h
  · rename_i hv
    refine ⟨?_, h, by rw [if_neg hv]⟩
    rw [← value?_eq_none_iff]
    simpa using hv

/-- A write that succeeds leaves something in the tree. -/
theorem setFrom_ne_empty {path v n : String} {ns : List String} {t : Tree} (h : (t.setFrom path v n ns).2 = none) :
    (t.setFrom path v n ns).1 ≠ empty := by
  cases ns with
  | nil =>
    rw [(setFrom_nil_ok h).2]
    exact setValue_ne_empty n v t
  | cons m ms =>
    rw [(setFrom_cons_ok h).2.2]
    exact setChild_ne_empty n _ t

/-! ## Well-formed trees -/

/-- The names of a tree have no dots, those of a node differ from each other, and no sub-tree is empty. -/
def WellFormed : Tree → Prop
  | leaves vs => (vs.map (·.1)).Nodup ∧ ∀ n ∈ vs.map (·.1), DotFree n
  | branch name child rest =>
    DotFree name ∧ name ∉ rest.valueNames ∧ name ∉ rest.subNames ∧ child ≠ empty ∧ child.WellFormed ∧ rest.WellFormed

theorem wellFormed_empty : empty.WellFormed := by
  simp [empty, WellFormed]

namespace WellFormed

variable {t : Tree}

theorem nodup_valueNames (h : t.WellFormed) : t.valueNames.Nodup := by
  induction t with
  | leaves vs => exact h.1
  | branch n c r _ ih => exact ih h.2.2.2.2.2

theorem nodup_subNames (h : t.WellFormed) : t.subNames.Nodup := by
  induction t with
  | leaves vs => exact List.nodup_nil
  | branch n c r _ ih => exact List.nodup_cons.mpr ⟨h.2.2.1, ih h.2.2.2.2.2⟩

/-- No leaf of the top node has the name of a sub-tree. -/
theorem not_mem_subNames (h : t.WellFormed) {n : String} (hn : n ∈ t.valueNames) : n ∉ t.subNames := by
  induction t with
  | leaves vs => simp [subNames]
  | branch m c r _ ih =>
    obtain ⟨-, hm, -, -, -, hr⟩ := h
    intro hs
    rcases List.mem_cons.mp hs with rfl | hs
    · exact hm hn
    · exact ih hr hn hs

theorem dotFree_of_mem_valueNames (h : t.WellFormed) {n : String} (hn : n ∈ t.valueNames) : DotFree n := by
  induction t with
  | leaves vs => exact h.2 n hn
  | branch m c r _ ih => exact ih h.2.2.2.2.2 hn

theorem dotFree_of_mem_subNames (h : t.WellFormed) {n : String} (hn : n ∈ t.subNames) : DotFree n := by
  induction t with
  | leaves vs => simp [subNames] at hn
  | branch m c r _ ih =>
    rcases List.mem_cons.mp hn with rfl | hn
    · exact h.1
    · exact ih h.2.2.2.2.2 hn

/-- A sub-tree is well formed, and is not empty. -/
theorem of_mem_subs (h : t.WellFormed) {n : String} {c : Tree} (hc : (n, c) ∈ t.subs) : c.WellFormed ∧ c ≠ empty := by
  induction t with
  | leaves vs => simp at hc
  | branch m d r _ ih =>
    rcases List.mem_cons.mp hc with e | hc
    · obtain ⟨rfl, rfl⟩ := Prod.mk.inj e
      exact ⟨h.2.2.2.2.1, h.2.2.2.1⟩
    · exact ih h.2.2.2.2.2 hc

theorem value?_eq_some_iff (h : t.WellFormed) {n v : String} : t.value? n = some v ↔ (n, v) ∈ t.values :=
  lookup_eq_some_iff_mem h.nodup_valueNames

theorem child?_eq_some_iff (h : t.WellFormed) {n : String} {c : Tree} : t.child? n = some c ↔ (n, c) ∈ t.subs :=
  lookup_eq_some_iff_mem h.nodup_subNames

/-- Giving a leaf a value keeps a tree well formed where the name is that of no sub-tree. -/
theorem setValue (h : t.WellFormed) {n : String} (v : String) (hd : DotFree n) (hs : n ∉ t.subNames) :
    (t.setValue n v).WellFormed := by
  induction t with
  | leaves vs =>
    obtain ⟨hn, hf⟩ := h
    simp only [Tree.setValue, WellFormed, map_fst_putValue]
    by_cases hm : n ∈ vs.map (·.1)
    · simpa only [if_pos hm, List.append_nil] using ⟨hn, hf⟩
    · rw [if_neg hm]
      refine ⟨List.nodup_append.mpr ⟨hn, by simp, ?_⟩, ?_⟩
      · rintro a ha b hb rfl
        exact hm (List.mem_singleton.mp hb ▸ ha)
      · intro x hx
        rcases List.mem_append.mp hx with hx | hx
        · exact hf x hx
        · exact List.mem_singleton.mp hx ▸ hd
  | branch m c r _ ih =>
    obtain ⟨hmd, hmv, hms, hce, hc, hr⟩ := h
    have hnm : n ≠ m := fun e => hs (e ▸ List.mem_cons_self ..)
    have hns : n ∉ r.subNames := fun e => hs (List.mem_cons_of_mem _ e)
    refine ⟨hmd, ?_, ?_, hce, hc, ih hr hns⟩
    · rw [← value?_eq_none_iff, value?_setValue, if_neg hnm.symm, value?_eq_none_iff]
      exact hmv
    · rw [subNames, subs_setValue]
      exact hms

/-- Putting a sub-tree in its place keeps a tree well formed where the name is that of no leaf. -/
theorem setChild (h : t.WellFormed) {n : String} {c : Tree} (hd : DotFree n) (hv : n ∉ t.valueNames) (hc : c.WellFormed)
    (hce : c ≠ empty) : (t.setChild n c).WellFormed := by
  induction t with
  | leaves vs => exact ⟨hd, hv, by simp [subNames], hce, hc, h⟩
  | branch m d r _ ih =>
    obtain ⟨hmd, hmv, hms, hde, hdw, hr⟩ := h
    by_cases hmn : m = n
    · rw [Tree.setChild, if_pos hmn]
      exact ⟨hmd, hmv, hms, hce, hc, hr⟩
    · rw [Tree.setChild, if_neg hmn]
      refine ⟨hmd, ?_, ?_, hde, hdw, ih hr hv⟩
      · rw [valueNames, values_setChild]
        exact hmv
      · rw [← child?_eq_none_iff, child?_setChild, if_neg hmn, child?_eq_none_iff]
        exact hms

/-- The sub-tree of a name, empty if there is none, is well formed. -/
theorem getD_child? (h : t.WellFormed) (n : String) : ((t.child? n).getD empty).WellFormed := by
  cases hc : t.child? n with
  | none => exact wellFormed_empty
  | some c => exact (h.of_mem_subs (h.child?_eq_some_iff.mp hc)).1

/-- A write keeps a tree well formed, whether it succeeds or not. -/
theorem setFrom (h : t.WellFormed) (path v : String) {n : String} {ns : List String} (hd : ∀ m ∈ n :: ns, DotFree m) :
    (t.setFrom path v n ns).1.WellFormed := by
  induction ns generalizing t n with
  | nil =>
    by_cases ok : (t.setFrom path v n []).2 = none
    · obtain ⟨hs, e⟩ := setFrom_nil_ok ok
      rw [e]
      exact h.setValue v (hd n (by simp)) hs
    · rw [setFrom_eq_self ok]
      exact h
  | cons m ms ih =>
    by_cases ok : (t.setFrom path v n (m :: ms)).2 = none
    · obtain ⟨hv, hok, e⟩ := setFrom_cons_ok ok
      rw [e]
      have hc := ih (h.getD_child? n) (fun x hx => hd x (List.mem_cons_of_mem _ hx))
      exact h.setChild (hd n (by simp)) hv hc (setFrom_ne_empty hok)
    · rw [setFrom_eq_self ok]
      exact h

/-- Writing at a path keeps a tree well formed. -/
theorem set (h : t.WellFormed) (path v : String) : (t.set path v).1.WellFormed := by
  apply h.setFrom
  rw [names_ofString]
  intro m hm
  exact dotFree_of_mem_segments hm

end WellFormed

/-- Writing at a path leaves the tree as it was where it fails. -/
theorem set_eq_self {t : Tree} {path v : String} (h : (t.set path v).2 ≠ none) : (t.set path v).1 = t :=
  setFrom_eq_self h

end Tree

end RunParams

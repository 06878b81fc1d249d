import RunParams.Proofs.Refusals

/-!
# Rejected writes

A write makes the sub-trees that are missing on its way, and may be rejected on that way. Once it has made one nothing can stand
in its way any more, so a write that is rejected has made none: the tree is what it was, with the same names in the same order at
every node. So the trees that writes lead to are those that the accepted ones among them lead to.
-/

namespace RunParams

/-- Giving a name the value that it has changes nothing. -/
theorem putValue_eq_self {name value : String} {l : List (String × String)} (h : l.lookup name = some value) :
    putValue name value l = l := by
  induction l with
  | nil => cases h
  | cons p l ih =>
    obtain ⟨n, v⟩ := p
    rw [lookup_cons_eq] at h
    by_cases hn : n = name
    · rw [if_pos hn.symm] at h
      obtain rfl := Option.some.inj h
      rw [putValue, if_pos hn]
    · rw [if_neg (Ne.symm hn)] at h
      rw [putValue, if_neg hn, ih h]

namespace Tree

/-! ## Writes that change nothing -/

theorem setValue_eq_self {t : Tree} {n v : String} (h : t.value? n = some v) : t.setValue n v = t := by
  induction t with
  | leaves vs => exact congrArg leaves (putValue_eq_self h)
  | branch m c r _ ih => exact congrArg (branch m c) (ih h)

/-- A write that fails, to the tree itself or below a sub-tree, leaves the tree. -/
theorem IsWrite.eq_self {act : Tree → Tree × Option TreeError} (ha : IsWrite act) {t : Tree} (h : (act t).2 ≠ none) :
    (act t).1 = t := by
  have hleaves : (act t).2 = none ∨ True ∧ (act t).1 = t := by
    clear h
    induction ha generalizing t with
    | set path value =>
      by_cases ok : (t.set path value).2 = none
      · exact .inl ok
      · exact .inr ⟨trivial, set_eq_self ok⟩
    | within path _ ih => exact withinFrom_leaves (P := (· = none)) (Q := fun _ => True) (fun _ => ih) t _ _
  exact (hleaves.resolve_left h).2

/-- Writing the value that is at the end of a path changes nothing. -/
theorem setFrom_of_getFrom {path n v : String} {ns : List String} {t : Tree} (h : t.getFrom n ns = some v) :
    (t.setFrom path v n ns).1 = t := by
  induction ns generalizing t n with
  | nil =>
    rw [setFrom]
    split
    · rfl
    · exact setValue_eq_self h
  | cons m ms ih =>
    obtain ⟨c, hc, hget⟩ := Option.bind_eq_some_iff.mp h
    rw [setFrom]
    split
    · rfl
    · dsimp only
      rw [hc, Option.getD_some, ih hget]
      exact setChild_child? hc

/-- A write leaves a tree exactly when it is rejected, or writes what is there. -/
theorem set_fst_eq_self_iff {t : Tree} {path value : String} :
    (t.set path value).1 = t ↔ (t.set path value).2 ≠ none ∨ t.get? path = some value := by
  constructor
  · intro h
    by_cases ok : (t.set path value).2 = none
    · right
      have hget := get?_set ok path
      rwa [h, if_pos rfl] at hget
    · exact .inl ok
  · rintro (h | h)
    · exact set_eq_self h
    · exact setFrom_of_getFrom h

/-! ## Trees that accepted writes make -/

/-- The trees that writes make of the empty tree when every one of them is accepted. -/
inductive Accepted : Tree → Prop
  | empty : Accepted Tree.empty
  | write {t : Tree} {act : Tree → Tree × Option TreeError} (h : Accepted t) (ha : IsWrite act) (ok : (act t).2 = none) :
    Accepted (act t).1

/-- The rejected ones among the writes that lead to a tree can be left out. -/
theorem Reachable.accepted {t : Tree} (h : t.Reachable) : t.Accepted := by
  induction h with
  | empty => exact .empty
  | @write t act _ ha ih =>
    by_cases ok : (act t).2 = none
    · exact .write ih ha ok
    · rw [ha.eq_self ok]
      exact ih

/-- No sub-tree of a node of a well-formed tree is empty. -/
theorem WellFormed.ne_empty_of_isNode {t s c : Tree} (h : t.WellFormed) (hs : IsNode t s) {n : String} (hc : s.child? n = some c) :
    c ≠ empty := by
  have hw := h.of_isNode hs
  exact (hw.of_mem_subs (hw.child?_eq_some_iff.mp hc)).2

/-- A write to a tree or below one of its sub-trees that is rejected leaves the tree as it was, and no write leaves an empty
sub-tree at any node. A write leaves the tree only if it is rejected or writes what is there, and without the rejected ones the
writes before it would have made the same tree. -/
theorem rejected_writes_leave_no_trace {t : Tree} (h : t.Reachable) :
    (∀ act, IsWrite act → (act t).2 ≠ none → (act t).1 = t) ∧
      (∀ act, IsWrite act → ∀ s n c, IsNode (act t).1 s → s.child? n = some c → c ≠ empty) ∧
      (∀ path value, (t.set path value).1 = t ↔ (t.set path value).2 ≠ none ∨ t.get? path = some value) ∧ t.Accepted := by
  refine ⟨fun act ha hrejected => ha.eq_self hrejected, ?_, fun path value => set_fst_eq_self_iff, h.accepted⟩
  intro act ha s n c hs hc
  exact (h.write ha).wellFormed.ne_empty_of_isNode hs hc

/-- A value stands in the way of the first of these writes below other names, a sub-tree in the way of the second, and a value
inside a sub-tree in the way of the third. -/
theorem rejected_writes_leave_no_trace_of_three :
    let t := branch "Newton" (branch "Line" (leaves [("Search", "on")]) (leaves [("Tolerance", "1e-8")])) (leaves [("A", "1")])
    t.Reachable ∧ (t.set "A.B.C.D" "2").2 = some (.valueInTheWay "A" "A.B.C.D") ∧ (t.set "A.B.C.D" "2").1 = t ∧
      (t.set "Newton.Line" "2").2 = some (.isSubTree "Newton.Line") ∧ (t.set "Newton.Line" "2").1 = t ∧
      (t.within "Newton" (·.set "Tolerance.Absolute" "2")).2 = some (.valueInTheWay "Tolerance" "Tolerance.Absolute") ∧
      (t.within "Newton" (·.set "Tolerance.Absolute" "2")).1 = t := by
  intro t
  have hreachable : t.Reachable :=
    .write (.write (.write .empty (.set "Newton.Line.Search" "on")) (.within "Newton" (.set "Tolerance" "1e-8"))) (.set "A" "1")
  obtain ⟨hrejected, -⟩ := rejected_writes_leave_no_trace hreachable
  have hvalue : (t.set "A.B.C.D" "2").2 = some (.valueInTheWay "A" "A.B.C.D") := by decide +kernel
  have hsub : (t.set "Newton.Line" "2").2 = some (.isSubTree "Newton.Line") := by decide +kernel
  have hinside : (t.within "Newton" (·.set "Tolerance.Absolute" "2")).2 =
      some (.valueInTheWay "Tolerance" "Tolerance.Absolute") := by decide +kernel
  refine ⟨hreachable, hvalue, hrejected _ (.set _ _) ?_, hsub, hrejected _ (.set _ _) ?_, hinside,
    hrejected _ (.within "Newton" (.set "Tolerance.Absolute" "2")) ?_⟩
  · rw [hvalue]
    exact Option.some_ne_none _
  · rw [hsub]
    exact Option.some_ne_none _
  · rw [hinside]
    exact Option.some_ne_none _

end Tree

end RunParams

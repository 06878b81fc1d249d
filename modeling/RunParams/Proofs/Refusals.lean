import RunParams.Proofs.Finalizers
import RunParams.Proofs.Runs

/-!
# Refusals

Whatever is refused leaves everything as it is: each call makes all of its checks before it changes anything. One check comes
late. A value that is written to the tree is asked for its text when the sub-trees on the way to its path have been made, and if
it has none, these stay.
-/

namespace RunParams

namespace Registry

variable {φ : Type}

end Registry

namespace Tree

/-! ## Assigned values -/

section

variable {path n : String} {ns : List String} {t : Tree}

end

/-- Two trees have the same values at the same paths, and in the same order. -/
structure SameValues (t u : Tree) : Prop where
  flatten_eq : ∀ lead, u.flatten lead = t.flatten lead
  getFrom_eq : ∀ n ns, u.getFrom n ns = t.getFrom n ns

theorem SameValues.refl (t : Tree) : t.SameValues t :=
  ⟨fun _ => rfl, fun _ _ => rfl⟩

theorem flatten_setChild {t c : Tree} {n : String} (h : ∀ lead, c.flatten lead = ((t.child? n).getD empty).flatten lead)
    (lead : String) : (t.setChild n c).flatten lead = t.flatten lead := by
  have hsub : (t.setChild n c).subKeys lead = t.subKeys lead := by
    induction t with
    | leaves vs =>
      have hempty : c.flatten (lead ++ n ++ ".") = [] := h _
      exact congrArg (· ++ []) hempty
    | branch m d r _ ih =>
      rw [child?_branch] at h
      by_cases hm : m = n
      · rw [if_pos hm.symm, Option.getD_some] at h
        rw [setChild, if_pos hm, subKeys, subKeys]
        exact congrArg (· ++ r.subKeys lead) (hm ▸ h _)
      · rw [if_neg (Ne.symm hm)] at h
        rw [setChild, if_neg hm, subKeys, subKeys, ih h]
  rw [flatten, flatten, values_setChild, hsub]

/-- A tree has the same values where one of its sub-trees, or an empty one in its place, is exchanged for one with the same. -/
theorem SameValues.setChild {t c : Tree} {n : String} (h : SameValues ((t.child? n).getD empty) c) :
    t.SameValues (t.setChild n c) := by
  refine ⟨flatten_setChild h.flatten_eq, fun k ks => ?_⟩
  cases ks with
  | nil => simp only [getFrom, value?_setChild]
  | cons m ms =>
    rw [getFrom_cons, getFrom_cons, child?_setChild]
    by_cases hk : k = n
    · rw [if_pos hk, hk, Option.getD_some, h.getFrom_eq]
    · rw [if_neg hk]

/-- An act that leaves all values leaves them where it is done below a sub-tree. -/
theorem SameValues.withinFrom {α : Type} {act : Tree → Tree × α} (ha : ∀ c : Tree, c.SameValues (act c).1) (t : Tree) (n : String)
    (ns : List String) : t.SameValues (t.withinFrom act n ns).1 := by
  induction ns generalizing t n with
  | nil =>
    cases hc : t.child? n with
    | none =>
      rw [withinFrom_none hc]
      exact .refl t
    | some c =>
      rw [withinFrom_nil hc]
      exact .setChild (by rw [hc]; exact ha c)
  | cons m ms ih =>
    cases hc : t.child? n with
    | none =>
      rw [withinFrom_none hc]
      exact .refl t
    | some c =>
      rw [withinFrom_cons hc]
      exact .setChild (by rw [hc]; exact ih c m)

/-- An act that has one of two results, the second only where it leaves the tree, has one of them below a sub-tree, too, and again
the second only where it leaves the whole tree. -/
theorem withinFrom_leaves {α : Type} {act : Tree → Tree × α} {P Q : α → Prop}
    (ha : ∀ c, P (act c).2 ∨ Q (act c).2 ∧ (act c).1 = c) (t : Tree) (n : String) (ns : List String) :
    P (t.withinFrom act n ns).2 ∨ Q (t.withinFrom act n ns).2 ∧ (t.withinFrom act n ns).1 = t := by
  cases hc : t.subFrom n ns with
  | none =>
    rw [withinFrom_of_subFrom_none hc]
    exact (ha empty).imp_right fun h => ⟨h.1, rfl⟩
  | some c =>
    obtain ⟨put, hput, hact⟩ := exists_withinFrom hc
    rw [hact]
    exact (ha c).imp_right fun h => ⟨h.1, (congrArg put h.2).trans hput⟩

/-- Acts below sub-trees, each below the one before. -/
def withinAll {α : Type} (act : Tree → Tree × α) : List String → Tree → Tree × α
  | [], t => act t
  | place :: places, t => t.within place (withinAll act places)

theorem SameValues.withinAll {α : Type} {act : Tree → Tree × α} (ha : ∀ c : Tree, c.SameValues (act c).1) (places : List String)
    (t : Tree) : t.SameValues (withinAll act places t).1 := by
  induction places generalizing t with
  | nil => exact ha t
  | cons place places ih => exact .withinFrom ih t _ _

end Tree

namespace Context

/-! ## One call -/

/-- A call of a context that may be refused: to register or hide a parameter, to replace a default, to read a value, whether there
is one or the lists of run-time values, or to write a value to the tree, perhaps below sub-trees, each below the one before. -/
inductive Call
  | register (ref : Reference) (usage : String)
  | hide (ref : Reference)
  | setDefault (ref : Reference) (value : Value)
  | get (ref : Reference) (checked : Bool)
  | isSet (ref : Reference) (checked : Bool)
  | lists
  | write (places : List String) (path : String) (value : Value)

/-- The context after a call, and why the call was refused if it was. -/
def call (ctx : Context) : Call → Context × Option Failure
  | .register ref usage => ctx.register ref usage
  | .hide ref => ctx.hide ref
  | .setDefault ref value => ctx.setDefault ref value
  | .get ref checked => (ctx, errorOf? (ctx.get ref checked))
  | .isSet ref checked => (ctx, errorOf? (ctx.isSet ref checked))
  | .lists => (ctx, errorOf? ctx.lists)
  | .write places path value =>
    let (tree, error) := Tree.withinAll (·.assign path value.display) places ctx.tree
    ({ ctx with tree }, error.map .ofAssign)

/-- A context has the same registry as another, and the same keys and values in its tree. -/
structure SameContents (ctx c : Context) : Prop where
  registry_eq : c.registry = ctx.registry
  keys_eq : c.tree.keys = ctx.tree.keys
  get?_eq : ∀ path, c.tree.get? path = ctx.tree.get? path

theorem SameContents.refl (ctx : Context) : ctx.SameContents ctx :=
  ⟨rfl, rfl, fun _ => rfl⟩

end Context

end RunParams

import RunParams.Document
import RunParams.Proofs.TreeMap

/-!
# Batches of writes

A document writes its values one after the other. All of these writes succeed exactly when no path of the tree and the document
stands above another one, and then every path has the value of the document, or else the one it had.
-/

namespace RunParams.Document

/-! ## One write -/

theorem wellFormed_write {t : Tree} (h : t.WellFormed) (overwrite : Bool) (path value : String) :
    (write overwrite t path value).1.WellFormed := by
  unfold write
  split
  · exact h.set path value
  · exact h

/-- A write that fails leaves the tree. -/
theorem write_eq_self {overwrite : Bool} {t : Tree} {path value : String} (h : (write overwrite t path value).2 ≠ none) :
    (write overwrite t path value).1 = t := by
  unfold write at h ⊢
  split
  · rename_i hw
    rw [if_pos hw] at h
    exact Tree.set_eq_self h
  · rfl

/-- A write succeeds exactly when no leaf's path stands above the path of the write, or below it. -/
theorem write_eq_none_iff {t : Tree} (h : t.WellFormed) {overwrite : Bool} {path value : String} :
    (write overwrite t path value).2 = none ↔ ∀ q, t.IsLeaf q → ¬IsAbove q path ∧ ¬IsAbove path q := by
  unfold write
  split
  · rw [← not_iff_not, ← ne_eq, h.set_failed_iff]
    simp only [not_forall, not_and_or, not_not, exists_prop]
  · rename_i hkeep
    -- A path that keeps its value is that of a leaf, and so is in the way of no other.
    have hpath : t.IsLeaf path := h.hasKey_iff.mp (by simp_all)
    simp only [true_iff]
    exact fun q hq => ⟨h.prefixFree q path hq hpath, h.prefixFree path q hpath hq⟩

/-- After a write that succeeds its path has the value, unless it keeps the one that it had. -/
theorem get?_write {t : Tree} {overwrite : Bool} {path value : String} (ok : (write overwrite t path value).2 = none)
    (q : String) :
    (write overwrite t path value).1.get? q =
      if q = path ∧ (overwrite = true ∨ t.get? path = none) then some value else t.get? q := by
  unfold write at ok ⊢
  by_cases hw : overwrite = true ∨ t.get? path = none
  · have hw' : (overwrite || !t.hasKey path) = true := by
      rcases hw with hw | hw <;> simp [hw, Tree.hasKey]
    rw [if_pos hw'] at ok ⊢
    rw [Tree.get?_set ok]
    simp only [hw, and_true]
  · have hw' : ¬(overwrite || !t.hasKey path) = true := by
      simp only [not_or, ← ne_eq, Option.ne_none_iff_isSome] at hw
      simp [hw.1, Tree.hasKey, hw.2]
    rw [if_neg hw']
    simp only [hw, and_false, if_false]

/-- A write that succeeds adds its path to those of the leaves. -/
theorem isLeaf_write {t : Tree} (h : t.WellFormed) {overwrite : Bool} {path value : String}
    (ok : (write overwrite t path value).2 = none) {q : String} :
    (write overwrite t path value).1.IsLeaf q ↔ t.IsLeaf q ∨ q = path := by
  rw [← (wellFormed_write h overwrite path value).hasKey_iff, ← h.hasKey_iff, Tree.hasKey, Tree.hasKey, get?_write ok]
  by_cases hq : q = path
  · subst hq
    by_cases hw : overwrite = true ∨ t.get? q = none
    · simp [hw]
    · have hsome : (t.get? q).isSome = true := Option.isSome_iff_ne_none.mpr fun e => hw (.inr e)
      simp only [hw, and_false, if_false, hsome, or_true]
  · simp [hq]

/-! ## Many writes -/

/-- Writes values one after the other, up to the first that cannot be written. -/
def writeEntries (overwrite : Bool) (t : Tree) : List (String × String) → Tree × Option TreeError
  | [] => (t, none)
  | (path, value) :: more =>
    match write overwrite t path value with
    | (t, none) => writeEntries overwrite t more
    | (t, some e) => (t, some e)

theorem writeEntries_cons {overwrite : Bool} {t : Tree} {path value : String} (more : List (String × String))
    (ok : (write overwrite t path value).2 = none) :
    writeEntries overwrite t ((path, value) :: more) = writeEntries overwrite (write overwrite t path value).1 more := by
  rw [writeEntries]
  split
  · rename_i e
    rw [e]
  · rename_i e
    rw [e] at ok
    cases ok

theorem writeEntries_cons_ne_none {overwrite : Bool} {t : Tree} {path value : String} (more : List (String × String))
    (hfail : (write overwrite t path value).2 ≠ none) : (writeEntries overwrite t ((path, value) :: more)).2 ≠ none := by
  rw [writeEntries]
  split
  · rename_i e
    rw [e] at hfail
    exact absurd rfl hfail
  · simp

/-- Writes succeed exactly when the first does, and those behind it do in the tree that it leaves. -/
theorem writeEntries_cons_eq_iff {overwrite : Bool} {t u : Tree} {path value : String} {more : List (String × String)} :
    writeEntries overwrite t ((path, value) :: more) = (u, none) ↔
      (write overwrite t path value).2 = none ∧ writeEntries overwrite (write overwrite t path value).1 more = (u, none) := by
  constructor
  · intro h
    have ok : (write overwrite t path value).2 = none := by
      by_contra hfail
      exact writeEntries_cons_ne_none more hfail (congrArg Prod.snd h)
    exact ⟨ok, (writeEntries_cons more ok).symm.trans h⟩
  · rintro ⟨ok, h⟩
    rw [writeEntries_cons more ok, h]

/-- All writes succeed exactly when no path of the tree and the writes stands above another one. -/
theorem writeEntries_eq_none_iff {overwrite : Bool} {t : Tree} (h : t.WellFormed) {entries : List (String × String)} :
    (writeEntries overwrite t entries).2 = none ↔ PrefixFree fun p => t.IsLeaf p ∨ p ∈ entries.map (·.1) := by
  induction entries generalizing t with
  | nil => simpa [writeEntries] using h.prefixFree
  | cons e entries ih =>
    obtain ⟨path, value⟩ := e
    by_cases ok : (write overwrite t path value).2 = none
    · rw [writeEntries_cons _ ok, ih (wellFormed_write h overwrite path value)]
      simp only [isLeaf_write h ok, List.map_cons, List.mem_cons, or_assoc]
    · refine ⟨fun h' => absurd h' (writeEntries_cons_ne_none entries ok), fun h' => ?_⟩
      refine absurd ((write_eq_none_iff h).mpr fun q hq => ?_) ok
      exact ⟨h' q path (.inl hq) (by simp), h' path q (by simp) (.inl hq)⟩

/-- After writes that succeed, a path has the value that was written, unless it keeps the one that it had. -/
theorem get?_writeEntries {overwrite : Bool} {t : Tree} {entries : List (String × String)}
    (hn : (entries.map (·.1)).Nodup) (ok : (writeEntries overwrite t entries).2 = none) (q : String) :
    (writeEntries overwrite t entries).1.get? q =
      if overwrite = true ∨ t.get? q = none then (entries.lookup q).or (t.get? q) else t.get? q := by
  induction entries generalizing t with
  | nil => simp [writeEntries]
  | cons e entries ih =>
    obtain ⟨path, value⟩ := e
    obtain ⟨hnew, hn⟩ := List.nodup_cons.mp hn
    have okw : (write overwrite t path value).2 = none := by
      by_contra hfail
      exact writeEntries_cons_ne_none entries hfail ok
    rw [writeEntries_cons _ okw] at ok ⊢
    rw [ih hn ok, get?_write okw, lookup_cons_eq]
    by_cases hq : q = path
    · subst hq
      have hnone : entries.lookup q = none := lookup_eq_none_iff_not_mem.mpr hnew
      by_cases hw : overwrite = true ∨ t.get? q = none
      · simp [hw, hnone]
      · simp [hw]
    · simp [hq]

end RunParams.Document

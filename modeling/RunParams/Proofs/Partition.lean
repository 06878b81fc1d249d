import RunParams.Proofs.Lifecycle

/-!
# All known keys

The keys of the tree and the registered names of a context fall into three parts: names with a run-time value, names without, and
keys that are no names. The parts are made from the listing of the tree and from look-ups in it, which agree on what has a value.
-/

namespace RunParams

/-! ## Names in ascending order -/

namespace Registry

variable {φ : Type} {reg : Registry φ}

theorem mem_sortedNames {n : String} : n ∈ reg.sortedNames ↔ n ∈ reg.names :=
  List.mem_mergeSort

/-- Names that differ from each other are strictly ascending once they are sorted. -/
theorem pairwise_sortedNames (hn : reg.names.Nodup) : reg.sortedNames.Pairwise (· < ·) := by
  have hsorted : reg.sortedNames.Pairwise fun a b => decide (a ≤ b) = true :=
    List.pairwise_mergeSort (fun a b c hab hbc => by simpa using String.le_trans (by simpa using hab) (by simpa using hbc))
      (fun a b => by simpa using String.le_total a b) reg.names
  have hnodup : reg.sortedNames.Nodup := (List.mergeSort_perm _ _).nodup_iff.mpr hn
  refine hsorted.imp₂ (fun a b hab hne => ?_) hnodup
  apply String.not_le.mp
  intro hba
  exact hne (String.le_antisymm (by simpa using hab) hba)

end Registry

/-! ## The three parts -/

namespace Context

/-- What it means that a partition divides the keys of the tree and the registered names of a context. -/
structure DividedBy (ctx : Context) (p : Partition) : Prop where
  /-- The names with a value stand in the order of the tree. -/
  runtime_sublist : p.runtime.Sublist ctx.tree.keys
  /-- So do the keys that are no names. -/
  unknown_sublist : p.unknown.Sublist ctx.tree.keys
  /-- Together these are all keys of the tree. -/
  perm : (p.runtime ++ p.unknown).Perm ctx.tree.keys
  /-- None of them is listed twice, be it in one of the two parts or in both. -/
  nodup : (p.runtime ++ p.unknown).Nodup
  /-- The names with a value are those that the tree has as a key. -/
  mem_runtime : ∀ n, n ∈ p.runtime ↔ n ∈ ctx.registry.names ∧ ctx.tree.hasKey n = true
  /-- The names without are the others. -/
  mem_compileTime : ∀ n, n ∈ p.compileTime ↔ n ∈ ctx.registry.names ∧ ctx.tree.hasKey n = false
  /-- The names without a value ascend, and so none is listed twice. -/
  ascending : p.compileTime.Pairwise (· < ·)
  /-- Every registered name is in one of the two parts for names and not in the other. -/
  exactly_one : ∀ n ∈ ctx.registry.names, n ∈ p.runtime ↔ n ∉ p.compileTime
  /-- No registered name is unknown. -/
  not_mem_unknown : ∀ n ∈ ctx.registry.names, n ∉ p.unknown

/-- The names with a value are the registered ones among the keys of the tree. -/
theorem Valid.mem_runtime {ctx : Context} (h : ctx.Valid) {n : String} :
    n ∈ ctx.partition.runtime ↔ n ∈ ctx.registry.names ∧ ctx.tree.hasKey n = true := by
  rw [partition, List.mem_filter, Tree.mem_keys, h.tree.wellFormed.hasKey_iff, Registry.contains_iff, and_comm]

theorem mem_compileTime {ctx : Context} {n : String} :
    n ∈ ctx.partition.compileTime ↔ n ∈ ctx.registry.names ∧ ctx.tree.hasKey n = false := by
  rw [partition, List.mem_filter, Registry.mem_sortedNames, Bool.not_eq_true']

theorem not_mem_names_of_mem_unknown {ctx : Context} {k : String} (hk : k ∈ ctx.partition.unknown) :
    k ∉ ctx.registry.names := by
  have hnot := (List.mem_filter.mp hk).2
  rw [Bool.not_eq_true'] at hnot
  intro hmem
  rw [Registry.contains_iff.mpr hmem] at hnot
  cases hnot

/-- The keys of the tree are its registered names and the others. -/
theorem perm_keys (ctx : Context) : (ctx.partition.runtime ++ ctx.partition.unknown).Perm ctx.tree.keys :=
  List.filter_append_perm ctx.registry.contains ctx.tree.keys

/-- The partition of a context divides its keys and names. -/
theorem Valid.dividedBy_partition {ctx : Context} (h : ctx.Valid) : ctx.DividedBy ctx.partition where
  runtime_sublist := List.filter_sublist
  unknown_sublist := List.filter_sublist
  perm := ctx.perm_keys
  nodup := ctx.perm_keys.nodup_iff.mpr h.tree.wellFormed.nodup_keys
  mem_runtime _ := h.mem_runtime
  mem_compileTime _ := mem_compileTime
  ascending := (Registry.pairwise_sortedNames h.registry.nodup).filter _
  exactly_one n hn := by
    rw [h.mem_runtime, mem_compileTime]
    simp [hn]
  not_mem_unknown n hn hk := not_mem_names_of_mem_unknown hk hn

/-! ## Reports of the parts -/

/-- The snapshot lists the keys of each part. -/
theorem snapshot_keys (ctx : Context) :
    ctx.snapshot.runtime.map (·.1) = ctx.partition.runtime ∧
      ctx.snapshot.compileTime.map (·.1) = ctx.partition.compileTime ∧
      ctx.snapshot.unused.map (·.1) = ctx.partition.unknown := by
  simp [snapshot, withValue, Function.comp_def]

/-- A key of the tree is paired with the value that it has there. -/
theorem get?_of_withValue {ctx : Context} {k n v : String} (hk : ctx.tree.hasKey k = true)
    (h : ctx.withValue k = (n, v)) : ctx.tree.get? n = some v := by
  obtain ⟨w, hw⟩ := Option.isSome_iff_exists.mp hk
  obtain ⟨rfl, rfl⟩ := Prod.mk.inj h
  rw [hw]
  rfl

/-- In a closed context the lists of what is set are the names with a value and the unknown keys, paired with their values. -/
theorem Valid.lists_eq {ctx : Context} (h : ctx.Valid) (hc : ctx.registry.isOpen = false) :
    ∃ used unused, ctx.lists = .ok (used, unused) ∧ used.map (·.1) = ctx.partition.runtime ∧
      unused.map (·.1) = ctx.partition.unknown ∧ ∀ k v, (k, v) ∈ used ++ unused → ctx.tree.get? k = some v := by
  refine ⟨ctx.partition.runtime.map ctx.withValue, ctx.partition.unknown.map ctx.withValue, ?_, ?_, ?_, ?_⟩
  · simp [lists, Registry.requireClosed, hc, Except.mapError, bind, Except.bind, pure, Except.pure]
  · simp [withValue, Function.comp_def]
  · simp [withValue, Function.comp_def]
  · intro k v hkv
    rw [← List.map_append, List.mem_map] at hkv
    obtain ⟨key, hkey, hv⟩ := hkv
    refine get?_of_withValue ?_ hv
    rw [h.tree.wellFormed.hasKey_iff, ← Tree.mem_keys]
    exact ctx.perm_keys.mem_iff.mp hkey

/-- In a closed context a registered parameter is set exactly when it is one of the names with a value. -/
theorem Valid.isSet_eq {ctx : Context} (h : ctx.Valid) (hc : ctx.registry.isOpen = false) {ref : Reference}
    (hn : ref.name ∈ ctx.registry.names) (checked : Bool) :
    ctx.isSet ref checked = .ok (decide (ref.name ∈ ctx.partition.runtime)) := by
  obtain ⟨r, hr⟩ := Registry.exists_find?_iff.mpr hn
  rw [isSet_of_find? hc hr]
  simp [h.mem_runtime, hn]

/-- A checked question for a name that is not registered is refused. -/
theorem isSet_of_not_mem {ctx : Context} {ref : Reference} (hn : ref.name ∉ ctx.registry.names) :
    ∃ f, ctx.isSet ref true = .error f := by
  have hnone := Registry.find?_eq_none_iff.mpr hn
  cases ho : ctx.registry.isOpen <;>
    simp [isSet, info, Registry.requireClosed, Registry.lookup, ho, hnone, Except.mapError, bind, Except.bind]

/-- The partition of a reachable context divides what is known of it: the keys of its tree are the registered names with a value
and the unknown keys, in the order of the tree, and the registered names are those with a value and those without, the latter
ascending. The snapshot has the same keys in each part. Once the context is closed, the lists of what is set are the first and
the last part with the values of the tree, and a parameter is set exactly when its name is in the first. -/
theorem partition_spec {ctx : Context} (h : ctx.Reachable) :
    ctx.DividedBy ctx.partition ∧
      (ctx.snapshot.runtime.map (·.1) = ctx.partition.runtime ∧
        ctx.snapshot.compileTime.map (·.1) = ctx.partition.compileTime ∧
        ctx.snapshot.unused.map (·.1) = ctx.partition.unknown) ∧
      (ctx.registry.phase = .closed →
        (∃ used unused, ctx.lists = .ok (used, unused) ∧ used.map (·.1) = ctx.partition.runtime ∧
          unused.map (·.1) = ctx.partition.unknown ∧ ∀ k v, (k, v) ∈ used ++ unused → ctx.tree.get? k = some v) ∧
        (∀ ref checked, ref.name ∈ ctx.registry.names →
          ctx.isSet ref checked = .ok (decide (ref.name ∈ ctx.partition.runtime))) ∧
        ∀ ref, ref.name ∉ ctx.registry.names → ∃ f, ctx.isSet ref true = .error f) := by
  have hv := h.valid
  refine ⟨hv.dividedBy_partition, ctx.snapshot_keys, ?_⟩
  intro hphase
  have hc := Registry.isOpen_eq_false_iff.mpr hphase
  exact ⟨hv.lists_eq hc, fun ref checked hn => hv.isSet_eq hc hn checked, fun ref hn => isSet_of_not_mem hn⟩

/-- A closed context with a parameter that is set, one that is not, and a key of a sub-tree. -/
theorem partition_spec_of_three_keys :
    let count : Declaration := ⟨"Count", none, ⟨some (.int 3), none⟩, []⟩
    let verbose : Declaration := ⟨"Verbose", none, ⟨some (.bool false), none⟩, []⟩
    let closed := ((empty.after (.register (.declared verbose) "Print more.")).after
      (.register (.declared count) "How many.")).after .endRegistration
    let ctx := (closed.after (.write (·.set "Newton.Tolerance" "1e-8") (.set _ _))).after
      (.write (·.set "Count" "4") (.set _ _))
    ctx.partition.runtime = ["Count"] ∧ ctx.partition.unknown = ["Newton.Tolerance"] ∧
      "Verbose" ∈ ctx.partition.compileTime ∧ "Count" ∉ ctx.partition.compileTime ∧
      (∃ used unused, ctx.lists = .ok (used, unused) ∧ used.map (·.1) = ["Count"] ∧
        unused.map (·.1) = ["Newton.Tolerance"] ∧ ∀ k v, (k, v) ∈ used ++ unused → ctx.tree.get? k = some v) ∧
      ctx.isSet (.named "Count") true = .ok true ∧ ctx.isSet (.named "Verbose") true = .ok false := by
  intro count verbose closed ctx
  have hreach : ctx.Reachable := ((((Reachable.empty.after _).after _).after _).after _).after _
  have hruntime : ctx.partition.runtime = ["Count"] := by decide +kernel
  have hunknown : ctx.partition.unknown = ["Newton.Tolerance"] := by decide +kernel
  have hcount : "Count" ∈ ctx.registry.names := by decide +kernel
  have hverbose : "Verbose" ∈ ctx.registry.names := by decide +kernel
  obtain ⟨hdivided, -, hclosed⟩ := partition_spec hreach
  obtain ⟨hlists, hset, -⟩ := hclosed (by decide +kernel)
  have hone := hdivided.exactly_one
  simp only [hruntime, hunknown] at hlists hset hone
  refine ⟨hruntime, hunknown, ?_, (hone _ hcount).mp (by decide), hlists, hset (.named "Count") true hcount,
    hset (.named "Verbose") true hverbose⟩
  exact not_not.mp fun hnot => absurd ((hone _ hverbose).mpr hnot) (by decide)

end Context

end RunParams

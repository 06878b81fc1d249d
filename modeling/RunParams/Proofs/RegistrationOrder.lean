import RunParams.Proofs.Partition
import RunParams.Proofs.Redeclaration
import RunParams.Usage

/-!
# The order of registrations

A registry keeps its records in the order in which they were registered, and reads them back in that order. Nothing else tells the
order: where two registries have the same records in different orders, all reports and all values are the same, and reading back
fails in both or in neither.
-/

namespace RunParams

/-! ## Registries with the same records -/

namespace Registry

/-- Two registries in the same phase that have the same records, perhaps in different orders. -/
structure Reordered (a b : Registry String) : Prop where
  records : a.records.Perm b.records
  phase : a.phase = b.phase
  valid_left : a.Valid
  valid_right : b.Valid

namespace Reordered

variable {a b : Registry String}

theorem isOpen_eq (h : a.Reordered b) : a.isOpen = b.isOpen := by
  rw [isOpen, isOpen, h.phase]

theorem names (h : a.Reordered b) : a.names.Perm b.names :=
  h.records.map _

/-- A name has the same record in both. -/
theorem find?_eq (h : a.Reordered b) (n : String) : a.find? n = b.find? n := by
  ext r
  rw [find?_eq_some_iff h.valid_left.nodup, find?_eq_some_iff h.valid_right.nodup, h.records.mem_iff]

theorem contains_eq (h : a.Reordered b) : a.contains = b.contains := by
  funext n
  rw [contains, contains, h.find?_eq]

/-- The names are the same in ascending order, which leaves no choice where they differ from each other. -/
theorem sortedNames_eq (h : a.Reordered b) : a.sortedNames = b.sortedNames := by
  have hperm : a.sortedNames.Perm b.sortedNames :=
    (List.mergeSort_perm _ _).trans (h.names.trans (List.mergeSort_perm _ _).symm)
  refine List.Perm.eq_of_pairwise (fun x y _ _ hxy hyx => ?_) (pairwise_sortedNames h.valid_left.nodup)
    (pairwise_sortedNames h.valid_right.nodup) hperm
  exact absurd (String.lt_trans hxy hyx) (String.lt_irrefl x)

theorem sortedRecords_eq (h : a.Reordered b) : a.sortedRecords = b.sortedRecords := by
  rw [sortedRecords, sortedRecords, h.sortedNames_eq, funext h.find?_eq]

theorem afterClose (h : a.Reordered b) : a.afterClose.Reordered b.afterClose where
  records := h.records
  phase := rfl
  valid_left := ⟨h.valid_left.nodup, h.valid_left.canonical, rfl⟩
  valid_right := ⟨h.valid_right.nodup, h.valid_right.canonical, rfl⟩

end Reordered

/-- Changing the record of a name that is not registered changes nothing. -/
theorem modify_of_not_mem {φ : Type} {reg : Registry φ} {n : String} (hn : n ∉ reg.names) (f : Record → Record) :
    reg.modify n f = reg := by
  have hkeep : (reg.records.map fun r => if r.name = n then f r else r) = reg.records.map id := by
    refine List.map_congr_left fun r hr => if_neg ?_
    rintro rfl
    exact hn (List.mem_map_of_mem hr)
  rw [modify, hkeep, List.map_id]

/-- In an open registry hiding marks the record of the name, if there is one. -/
theorem hide_fst_of_open {φ : Type} {reg : Registry φ} (ho : reg.isOpen = true) (n : String) :
    (reg.hide n).1 = reg.modify n fun r => { r with hidden := true } := by
  cases hfind : reg.find? n with
  | none =>
    rw [modify_of_not_mem (find?_eq_none_iff.mp hfind)]
    simp [Registry.hide, requireOpen, ho, lookup, hfind, bind, Except.bind]
  | some r => simp [Registry.hide, requireOpen, ho, lookup, hfind, bind, Except.bind]

end Registry

namespace Context

/-- Registration ends well exactly when every registered parameter can be read back. -/
theorem endRegistration_eq_none_iff {ctx : Context} (h : ctx.registry.Valid) (ho : ctx.registry.isOpen = true) :
    ctx.endRegistration.2 = none ↔
      ∀ n ∈ ctx.registry.names, ∃ v, ctx.endRegistration.1.get (.named n) true = .ok v := by
  rw [endRegistration_snd h ho, List.findSome?_eq_none_iff]
  simp only [errorOf?_eq_none_iff, Registry.names, List.forall_mem_map]

/-- Two contexts with the same tree and the same records, perhaps in different orders. -/
structure Reordered (a b : Context) : Prop where
  tree : a.tree = b.tree
  registry : a.registry.Reordered b.registry

namespace Reordered

variable {a b : Context}

/-! ### What is reported -/

theorem message_eq (h : a.Reordered b) (preamble error : String) (showAll : Bool) (width : Int) :
    Usage.message a preamble error showAll width = Usage.message b preamble error showAll width := by
  unfold Usage.message
  rw [h.registry.sortedRecords_eq]

theorem partition_eq (h : a.Reordered b) : a.partition = b.partition := by
  unfold partition
  rw [h.tree, h.registry.sortedNames_eq, h.registry.contains_eq]

theorem snapshot_eq (h : a.Reordered b) : a.snapshot = b.snapshot := by
  have hvalue : a.withValue = b.withValue := by
    funext key
    rw [withValue, withValue, h.tree]
  have hdefault : a.defaultText = b.defaultText := by
    funext name
    rw [defaultText, defaultText, h.registry.find?_eq]
  unfold snapshot
  rw [h.partition_eq, hvalue, hdefault, h.tree]

/-! ### What is read -/

/-- A registered parameter of a closed context has the same value, and is set in both or in neither. -/
theorem get_eq (h : a.Reordered b) (hc : a.registry.isOpen = false) {ref : Reference} (hn : ref.name ∈ a.registry.names)
    (checked : Bool) : a.get ref checked = b.get ref checked ∧ a.isSet ref checked = b.isSet ref checked := by
  obtain ⟨r, hr⟩ := Registry.exists_find?_iff.mpr hn
  have hr' : b.registry.find? ref.name = some r := h.registry.find?_eq ref.name ▸ hr
  have hc' : b.registry.isOpen = false := h.registry.isOpen_eq ▸ hc
  rw [get_of_find? hc hr, get_of_find? hc' hr', isSet_of_find? hc hr, isSet_of_find? hc' hr', h.tree]
  exact ⟨rfl, rfl⟩

/-- Hiding a parameter hides it in both. -/
theorem hide (h : a.Reordered b) (ho : a.registry.isOpen = true) (ref : Reference) :
    (a.after (.hide ref)).Reordered (b.after (.hide ref)) := by
  have hvalid : ∀ c : Context, c.registry.Valid → (c.after (.hide ref)).registry.Valid :=
    fun c hv => hv.step (c.registry_after nofun)
  have ha : (a.after (.hide ref)).registry = a.registry.modify ref.name fun r => { r with hidden := true } :=
    Registry.hide_fst_of_open ho ref.name
  have hb : (b.after (.hide ref)).registry = b.registry.modify ref.name fun r => { r with hidden := true } :=
    Registry.hide_fst_of_open (h.registry.isOpen_eq ▸ ho) ref.name
  refine ⟨h.tree, ?_, ?_, hvalid a h.registry.valid_left, hvalid b h.registry.valid_right⟩
  · rw [ha, hb]
    exact h.registry.records.map _
  · rw [ha, hb]
    exact h.registry.phase

/-! ### The end of registration -/

/-- After its end the contexts still have the same records, and it ends well in both or in neither. -/
theorem endRegistration (h : a.Reordered b) (ho : a.registry.isOpen = true) :
    a.endRegistration.1.Reordered b.endRegistration.1 ∧ (a.endRegistration.2 = none ↔ b.endRegistration.2 = none) := by
  have ho' : b.registry.isOpen = true := h.registry.isOpen_eq ▸ ho
  have hafter : a.endRegistration.1.Reordered b.endRegistration.1 := by
    rw [endRegistration_fst ho, endRegistration_fst ho']
    exact ⟨h.tree, h.registry.afterClose⟩
  refine ⟨hafter, ?_⟩
  rw [endRegistration_eq_none_iff h.registry.valid_left ho, endRegistration_eq_none_iff h.registry.valid_right ho']
  have hclosed : a.endRegistration.1.registry.isOpen = false := by
    rw [endRegistration_fst ho]
    rfl
  have hget : ∀ n ∈ a.registry.names,
      a.endRegistration.1.get (.named n) true = b.endRegistration.1.get (.named n) true := by
    intro n hn
    have hmem : (Reference.named n).name ∈ a.endRegistration.1.registry.names := by
      rw [endRegistration_fst ho]
      exact hn
    exact (hafter.get_eq hclosed hmem true).1
  constructor
  · intro hall n hn
    have hmem := h.registry.names.mem_iff.mpr hn
    rw [← hget n hmem]
    exact hall n hmem
  · intro hall n hn
    rw [hget n hn]
    exact hall n (h.registry.names.mem_iff.mp hn)

end Reordered

/-! ## Registering and hiding -/

/-- The record that a declaration adds where its name is new: one with a canonical name, unless its default has no text. -/
def recordOf? (d : Declaration × String) : Option Record :=
  match Record.ofDeclaration d.1 d.2 with
  | .ok r => if Spelling.canonicalize true r.name = .ok r.name then some r else none
  | .error _ => none

theorem recordOf?_eq_some_iff {d : Declaration × String} {r : Record} :
    recordOf? d = some r ↔ Record.ofDeclaration d.1 d.2 = .ok r ∧ Spelling.canonicalize true r.name = .ok r.name := by
  unfold recordOf?
  cases Record.ofDeclaration d.1 d.2 with
  | error e => simp
  | ok s =>
    by_cases hs : Spelling.canonicalize true s.name = .ok s.name
    · simp only [hs, if_true, Option.some.injEq, Except.ok.injEq]
      constructor
      · rintro rfl
        exact ⟨rfl, hs⟩
      · exact fun h => h.1
    · simp only [hs, if_false, Except.ok.injEq, reduceCtorEq, false_iff]
      rintro ⟨rfl, h⟩
      exact hs h

theorem name_of_recordOf? {d : Declaration × String} {r : Record} (h : recordOf? d = some r) : r.name = d.1.parameterName :=
  Record.name_of_ofDeclaration (recordOf?_eq_some_iff.mp h).1

/-- Registering leaves the tree. -/
theorem tree_register (ctx : Context) (ref : Reference) (usage : String) : (ctx.register ref usage).1.tree = ctx.tree := by
  unfold register
  split
  · rfl
  · split <;> rfl

/-- Registering a declaration with a new name in an open context adds its record, if it has one. -/
theorem records_register {ctx : Context} (ho : ctx.registry.isOpen = true) {d : Declaration × String}
    (hnew : d.1.parameterName ∉ ctx.registry.names) :
    (ctx.after (.register (.declared d.1) d.2)).registry.isOpen = true ∧
      (ctx.after (.register (.declared d.1) d.2)).registry.records = ctx.registry.records ++ (recordOf? d).toList := by
  cases hrecord : recordOf? d with
  | some r =>
    obtain ⟨hr, hcanonical⟩ := recordOf?_eq_some_iff.mp hrecord
    obtain ⟨c, hregister, hopen, hrecords, -⟩ := register_new ho hr hcanonical (name_of_recordOf? hrecord ▸ hnew)
    rw [after, hregister]
    exact ⟨hopen, hrecords⟩
  | none =>
    have heffect := ctx.effect_after (.register (.declared d.1) d.2)
    generalize (ctx.after (.register (.declared d.1) d.2)).registry = reg at heffect ⊢
    cases heffect with
    | nothing _ => exact ⟨ho, by simp⟩
    | register hr _ hcanonical _ =>
      rw [recordOf?_eq_some_iff.mpr ⟨mapError_eq_ok.mp hr, hcanonical⟩] at hrecord
      cases hrecord

/-- Registering declarations with new names that differ from each other adds their records in order. -/
theorem records_registerAll {ctx : Context} (ho : ctx.registry.isOpen = true) {decls : List (Declaration × String)}
    (hnew : ∀ d ∈ decls, d.1.parameterName ∉ ctx.registry.names) (hnames : (decls.map (·.1.parameterName)).Nodup) :
    (ctx.registerAll decls).registry.isOpen = true ∧
      (ctx.registerAll decls).registry.records = ctx.registry.records ++ decls.filterMap recordOf? := by
  induction decls generalizing ctx with
  | nil => exact ⟨ho, by simp [registerAll]⟩
  | cons d decls ih =>
    obtain ⟨hd, hdecls⟩ := List.forall_mem_cons.mp hnew
    obtain ⟨hother, hnames⟩ := List.nodup_cons.mp hnames
    obtain ⟨hopen, hrecords⟩ := records_register ho hd
    have hnext : ∀ e ∈ decls, e.1.parameterName ∉ (ctx.after (.register (.declared d.1) d.2)).registry.names := by
      intro e he hmem
      rw [Registry.names, hrecords, List.map_append, List.mem_append] at hmem
      rcases hmem with hmem | hmem
      · exact hdecls e he hmem
      · obtain ⟨r, hr, hname⟩ := List.mem_map.mp hmem
        rw [name_of_recordOf? (Option.mem_toList.mp hr)] at hname
        exact hother (List.mem_map.mpr ⟨e, he, hname.symm⟩)
    obtain ⟨hopen', hrecords'⟩ := ih hopen hnext hnames
    refine ⟨hopen', hrecords'.trans ?_⟩
    rw [hrecords, List.append_assoc]
    cases hd : recordOf? d <;> simp [hd]

/-- Where nothing has been registered, declarations with different names add their records in order. -/
theorem registerAll_empty (tree : Tree) {decls : List (Declaration × String)}
    (hnames : (decls.map (·.1.parameterName)).Nodup) :
    ((Context.mk .empty tree).registerAll decls).registry.isOpen = true ∧
      ((Context.mk .empty tree).registerAll decls).registry.records = decls.filterMap recordOf? := by
  have ho : (Context.mk .empty tree).registry.isOpen = true := rfl
  have hnew : ∀ d ∈ decls, d.1.parameterName ∉ (Context.mk .empty tree).registry.names :=
    fun _ _ => by simp [Registry.names, Registry.empty]
  exact records_registerAll ho hnew hnames

theorem tree_registerAll (ctx : Context) (decls : List (Declaration × String)) : (ctx.registerAll decls).tree = ctx.tree := by
  induction decls generalizing ctx with
  | nil => rfl
  | cons d decls ih => exact (ih _).trans (ctx.tree_register (.declared d.1) d.2)

theorem valid_registerAll {ctx : Context} (h : ctx.registry.Valid) (decls : List (Declaration × String)) :
    (ctx.registerAll decls).registry.Valid := by
  induction decls generalizing ctx with
  | nil => exact h
  | cons d decls ih => exact ih (h.step (ctx.registry_after nofun))

/-- Declarations with different names make the same records in any order. -/
theorem reordered_registerAll (tree : Tree) {decls decls' : List (Declaration × String)} (hperm : decls.Perm decls')
    (hnames : (decls.map (·.1.parameterName)).Nodup) :
    ((Context.mk .empty tree).registerAll decls).Reordered ((Context.mk .empty tree).registerAll decls') := by
  obtain ⟨hopen, hrecords⟩ := registerAll_empty tree hnames
  obtain ⟨hopen', hrecords'⟩ := registerAll_empty tree ((hperm.map _).nodup_iff.mp hnames)
  refine ⟨(tree_registerAll _ _).trans (tree_registerAll _ _).symm, ?_, ?_, valid_registerAll Registry.valid_empty _,
    valid_registerAll Registry.valid_empty _⟩
  · rw [hrecords, hrecords']
    exact hperm.filterMap _
  · rw [Registry.isOpen_eq_true_iff.mp hopen, Registry.isOpen_eq_true_iff.mp hopen']

/-- Hides parameters one after the other. -/
def hideAll (ctx : Context) (refs : List Reference) : Context :=
  refs.foldl (fun c ref => c.after (.hide ref)) ctx

/-- Hiding parameters hides them in both, and leaves the names and the phase. -/
theorem Reordered.hideAll {a b : Context} (h : a.Reordered b) (ho : a.registry.isOpen = true) (refs : List Reference) :
    (a.hideAll refs).Reordered (b.hideAll refs) ∧ (a.hideAll refs).registry.isOpen = true ∧
      (a.hideAll refs).registry.names = a.registry.names := by
  induction refs generalizing a b with
  | nil => exact ⟨h, ho, rfl⟩
  | cons ref refs ih =>
    have hhide : (a.after (.hide ref)).registry = a.registry.modify ref.name fun r => { r with hidden := true } :=
      Registry.hide_fst_of_open ho ref.name
    have hopen : (a.after (.hide ref)).registry.isOpen = true := by
      rw [hhide]
      exact ho
    obtain ⟨hreordered, hopen', hnames⟩ := ih (h.hide ho ref) hopen
    refine ⟨hreordered, hopen', hnames.trans ?_⟩
    rw [hhide]
    exact Registry.names_modify _ _ fun _ => rfl

/-- The order in which parameters with different names are registered is not seen afterwards, whatever the tree holds and whichever
of them are hidden then. Registered are those with a canonical name and a default that has a text, and the two orders give the same
usage messages, the same names in ascending order, the same partition of all known keys and the same snapshot. Registration ends
well in both or in neither, and after its end every registered parameter has the same value, or fails with the same error, and is
set in both or in neither. -/
theorem registration_order_irrelevant (tree : Tree) {decls decls' : List (Declaration × String)} (hperm : decls.Perm decls')
    (hnames : (decls.map (·.1.parameterName)).Nodup) (hides : List Reference) :
    let a := ((Context.mk .empty tree).registerAll decls).hideAll hides
    let b := ((Context.mk .empty tree).registerAll decls').hideAll hides
    (∀ n, n ∈ a.registry.names ↔ ∃ d ∈ decls, d.1.parameterName = n ∧ Spelling.canonicalize true n = .ok n ∧
      ∃ r, Record.ofDeclaration d.1 d.2 = .ok r) ∧
    (∀ preamble error showAll width,
      Usage.message a preamble error showAll width = Usage.message b preamble error showAll width) ∧
    a.registry.sortedNames = b.registry.sortedNames ∧ a.partition = b.partition ∧ a.snapshot = b.snapshot ∧
    (a.endRegistration.2 = none ↔ b.endRegistration.2 = none) ∧
    ∀ ref checked, ref.name ∈ a.registry.names →
      a.endRegistration.1.get ref checked = b.endRegistration.1.get ref checked ∧
        a.endRegistration.1.isSet ref checked = b.endRegistration.1.isSet ref checked := by
  intro a b
  obtain ⟨hopen, hrecords⟩ := registerAll_empty tree hnames
  obtain ⟨h, ho, hsame⟩ := (reordered_registerAll tree hperm hnames).hideAll hopen hides
  obtain ⟨hended, hends⟩ := h.endRegistration ho
  refine ⟨fun n => ?_, h.message_eq, h.registry.sortedNames_eq, h.partition_eq, h.snapshot_eq, hends, ?_⟩
  · change n ∈ (((Context.mk .empty tree).registerAll decls).hideAll hides).registry.names ↔ _
    rw [hsame, Registry.names, hrecords]
    simp only [List.mem_map, List.mem_filterMap]
    constructor
    · rintro ⟨r, ⟨d, hd, hrecord⟩, rfl⟩
      obtain ⟨hr, hcanonical⟩ := recordOf?_eq_some_iff.mp hrecord
      exact ⟨d, hd, (name_of_recordOf? hrecord).symm, hcanonical, r, hr⟩
    · rintro ⟨d, hd, rfl, hcanonical, r, hr⟩
      have hname := Record.name_of_ofDeclaration hr
      exact ⟨r, ⟨d, hd, recordOf?_eq_some_iff.mpr ⟨hr, hname ▸ hcanonical⟩⟩, hname⟩
  · intro ref checked hn
    have hclosed := endRegistration_fst ho
    refine hended.get_eq ?_ ?_ checked
    · rw [hclosed]
      rfl
    · rw [hclosed]
      exact hn

/-- Three parameters in two orders, one of them hidden, one with a default that cannot be read, and one that is set. -/
theorem registration_order_irrelevant_of_reverse :
    let side : Declaration := ⟨"Side", none, ⟨some (.text "left"), none⟩, []⟩
    let count : Declaration := ⟨"Count", none, ⟨some (.text "many"), some (some .int)⟩, []⟩
    let verbose : Declaration := ⟨"Verbose", none, ⟨some (.bool false), none⟩, []⟩
    let decls := [(verbose, "Print more."), (count, "How many."), (side, "Which one.")]
    let tree := (Tree.empty.set "Side" "right").1
    let a := ((Context.mk .empty tree).registerAll decls).hideAll [.named "Verbose"]
    let b := ((Context.mk .empty tree).registerAll decls.reverse).hideAll [.named "Verbose"]
    a.registry.names = ["Verbose", "Count", "Side"] ∧ b.registry.names = ["Side", "Count", "Verbose"] ∧
      Usage.message a "Usage: sim" "" false 80 = Usage.message b "Usage: sim" "" false 80 ∧
      a.partition = b.partition ∧ a.snapshot = b.snapshot ∧ a.endRegistration.2 ≠ none ∧ b.endRegistration.2 ≠ none ∧
      a.endRegistration.1.get (.named "Side") true = b.endRegistration.1.get (.named "Side") true := by
  intro side count verbose decls tree a b
  have hnames : (decls.map (·.1.parameterName)).Nodup := by decide +kernel
  have hfails : a.endRegistration.2 ≠ none := by decide +kernel
  obtain ⟨-, hmessage, -, hpartition, hsnapshot, hends, hvalues⟩ :=
    registration_order_irrelevant tree decls.reverse_perm.symm hnames [.named "Verbose"]
  exact ⟨by decide +kernel, by decide +kernel, hmessage "Usage: sim" "" false 80, hpartition, hsnapshot, hfails,
    fun hb => hfails (hends.mpr hb), (hvalues (.named "Side") true (by decide +kernel)).1⟩

end Context

end RunParams

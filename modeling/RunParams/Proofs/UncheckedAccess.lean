import RunParams.Proofs.Lifecycle
import RunParams.Proofs.Redeclaration

/-!
# Unchecked access

An access that is not checked may come before its parameter is registered, and then takes what it needs from the declaration. It
gives what a checked access gives once the parameter has been registered and registration has ended. In a closed context it makes
no difference whether an access is checked, nor by which reference it names the parameter.
-/

namespace RunParams

namespace Context

/-! ## Records with the same value -/

/-- The value of a record depends on its name, its type and its default. -/
theorem valueOf_congr {r s : Record} (hname : r.name = s.name) (htype : r.type = s.type) (hdefault : r.default = s.default)
    (tree : Tree) : valueOf tree r = valueOf tree s := by
  have hparse : ∀ text, r.parse text "" = s.parse text "" := by
    intro text
    rw [Record.parse_eq, Record.parse_eq, hname, htype]
  simp only [valueOf, Record.defaultValue, hparse, hname, hdefault]

/-! ## Before registration -/

/-- An unchecked access to a declaration with a name that is not registered has its record, without a usage. -/
theorem info_of_not_mem {ctx : Context} {d : Declaration} (hnew : d.parameterName ∉ ctx.registry.names) {r : Record}
    (hr : Record.ofDeclaration d "" = .ok r) (verb : String) : ctx.info (.declared d) false verb = .ok r := by
  have hnone : ctx.registry.find? (Reference.declared d).name = none := Registry.find?_eq_none_iff.mpr hnew
  simp only [info, hnone, Bool.false_eq_true, if_false, hr]
  rfl

/-- An unchecked access to such a declaration gives the value of that record. -/
theorem access_of_not_mem {ctx : Context} {d : Declaration} (hnew : d.parameterName ∉ ctx.registry.names) {r : Record}
    (hr : Record.ofDeclaration d "" = .ok r) :
    ctx.get (.declared d) false = (valueOf ctx.tree r).mapError .read ∧
      ctx.isSet (.declared d) false = .ok (ctx.tree.hasKey d.parameterName) := by
  refine ⟨get_of_info (info_of_not_mem hnew hr "retrieved"), ?_⟩
  rw [isSet_of_info (info_of_not_mem hnew hr "checked"), Record.name_of_ofDeclaration hr]

/-! ## After registration -/

/-- In a closed context all references to a registered name give the same, be the access checked or not. -/
theorem access_of_closed {ctx : Context} (hclosed : ctx.registry.isOpen = false) {ref ref' : Reference}
    (hmem : ref.name ∈ ctx.registry.names) (href : ref'.name = ref.name) (checked checked' : Bool) :
    ctx.get ref checked = ctx.get ref' checked' ∧ ctx.isSet ref checked = ctx.isSet ref' checked' := by
  obtain ⟨r, hr⟩ := Registry.exists_find?_iff.mpr hmem
  have hr' : ctx.registry.find? ref'.name = some r := href ▸ hr
  constructor
  · rw [get_of_find? hclosed hr, get_of_find? hclosed hr']
  · rw [isSet_of_find? hclosed hr, isSet_of_find? hclosed hr', href]

/-- Take any context. While it is open, an unchecked access to a declaration with a default that has a text, under a canonical name
that is not registered, leaves the registry and gives the value, or the error of it, and whether it is set, that a checked access
gives once the declaration has been registered with whatever usage and registration has ended, well or not; the error is that of a
text of the parameter. While it is closed, a registered name gives the same by any two references to it, be the access checked or
not. -/
theorem unchecked_access_registered (ctx : Context) :
    (∀ d usage text, ctx.registry.phase = .opened → Spelling.IsCanonical d.parameterName →
        d.parameterName ∉ ctx.registry.names → d.value.toText = .ok text →
        let registered := ctx.register (.declared d) usage
        let ended := registered.1.endRegistration.1
        registered.2 = none ∧ ended.registry.phase = .closed ∧
          ctx.get (.declared d) false = ended.get (.declared d) true ∧
          (∀ failure, ctx.get (.declared d) false = .error failure →
            ∃ r text, Record.ofDeclaration d usage = .ok r ∧ r.FailsWith text failure) ∧
          ctx.isSet (.declared d) false = ended.isSet (.declared d) true ∧
          ctx.isSet (.declared d) false = .ok (ctx.tree.hasKey d.parameterName) ∧
          (ctx.after (.get (.declared d) false)).registry = ctx.registry ∧
          (ctx.after (.isSet (.declared d) false)).registry = ctx.registry) ∧
      (ctx.registry.phase = .closed → ∀ ref ref', ref.name ∈ ctx.registry.names → ref'.name = ref.name →
        ∀ checked checked',
          ctx.get ref checked = ctx.get ref' checked' ∧ ctx.isSet ref checked = ctx.isSet ref' checked') := by
  constructor
  · intro d usage text hphase hcanonical hnew htext
    let r : Record := ⟨d.parameterName, d.type, usage, text, false⟩
    let s : Record := ⟨d.parameterName, d.type, "", text, false⟩
    have hopen : ctx.registry.isOpen = true := by simp [Registry.isOpen, hphase]
    have hr : Record.ofDeclaration d usage = .ok r := Record.ofDeclaration_of_toText htext usage
    have hs : Record.ofDeclaration d "" = .ok s := Record.ofDeclaration_of_toText htext ""
    obtain ⟨ok, hclosed, hfind, htree⟩ :=
      ended_of_register_new hopen hr (Spelling.canonicalize_eq_self_iff.mpr hcanonical) hnew
    obtain ⟨hget, hset⟩ := access_of_not_mem hnew hs
    intro registered ended
    have htree' : ended.tree = ctx.tree := htree
    have hget' := @get_of_find? ended hclosed (.declared d) r hfind true
    have hset' := @isSet_of_find? ended hclosed (.declared d) r hfind true
    rw [htree'] at hget' hset'
    have hvalue : valueOf ctx.tree s = valueOf ctx.tree r := valueOf_congr rfl rfl rfl ctx.tree
    rw [hvalue] at hget
    refine ⟨ok, Registry.isOpen_eq_false_iff.mp hclosed, hget.trans hget'.symm, fun failure he => ?_, hset.trans hset'.symm, hset,
      rfl, rfl⟩
    rw [hget, valueOf_mapError_eq_error_iff] at he
    obtain ⟨bad, -, hfails⟩ := he
    exact ⟨r, bad, hr, hfails⟩
  · intro hphase ref ref' hmem href checked checked'
    exact access_of_closed (Registry.isOpen_eq_false_iff.mpr hphase) hmem href checked checked'

/-- A parameter with a text in the tree, beside one that keeps registration from ending well; and another declaration of it. -/
theorem unchecked_access_registered_of_label :
    let count : Declaration := ⟨"Items", some "Count", ⟨some (.int 3), none⟩, []⟩
    let other : Declaration := ⟨"Count", none, ⟨some (.bool true), none⟩, []⟩
    let limit : Declaration := ⟨"Limit", none, ⟨some (.text "many"), some (some .int)⟩, []⟩
    let ctx := (empty.after (.register (.declared limit) "At most.")).after (.write (·.set "Count" "7") (.set "Count" "7"))
    let registered := ctx.register (.declared count) "How many."
    let ended := registered.1.endRegistration.1
    registered.1.endRegistration.2 ≠ none ∧ ended.get (.declared count) true = .ok (.int 7) ∧
      ctx.get (.declared count) false = .ok (.int 7) ∧ ctx.isSet (.declared count) false = .ok true ∧
      ended.get (.declared other) false = .ok (.int 7) := by
  intro count other limit ctx registered ended
  have hcanonical : Spelling.IsCanonical "Count" := Spelling.canonicalize_eq_self_iff.mp (by decide +kernel)
  obtain ⟨hopened, -⟩ := unchecked_access_registered ctx
  obtain ⟨-, -, hget, -, -, hset, -⟩ :=
    hopened count "How many." "3" (by decide +kernel) hcanonical (by decide +kernel) (by decide +kernel)
  obtain ⟨-, hclosed⟩ := unchecked_access_registered ended
  obtain ⟨hsame, -⟩ := hclosed (by decide +kernel) (.declared count) (.declared other) (by decide +kernel) rfl true false
  have hvalue : ended.get (.declared count) true = .ok (.int 7) := by
    have hfind : ended.registry.find? (Reference.declared count).name =
        some ⟨"Count", some .int, "How many.", "3", false⟩ := by decide +kernel
    have htext : ended.tree.get? "Count" = some "7" := by decide +kernel
    have hread : valueOf ended.tree ⟨"Count", some .int, "How many.", "3", false⟩ = .ok (.int 7) :=
      valueOf_eq_ok_iff.mpr ⟨⟨.int 3, rfl⟩, by rw [htext]; rfl⟩
    rw [get_of_find? (by decide +kernel) hfind, hread]
    rfl
  exact ⟨by decide +kernel, hvalue, hget.trans hvalue, hset.trans (by decide +kernel), hsame.symm.trans hvalue⟩

end Context

end RunParams

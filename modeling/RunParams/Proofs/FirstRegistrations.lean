import RunParams.Proofs.Redeclaration

/-!
# First registrations

A name may be registered more than once. As long as the context is not cleared, the first registration of a name that succeeds
says what type the parameter has, what it is for, and of what kind it is. A later one succeeds if it gives the same name of the
type and the same usage, and is refused otherwise. Neither changes anything: a default that has been set stays, and so does what
is hidden.
-/

namespace RunParams

/-- The name of the type of a declaration; empty without one. -/
def Declaration.typeName (d : Declaration) : String :=
  (d.type.map (·.name)).getD ""

/-- What a record has for as long as it is registered: its name, type, usage and kind. -/
def Record.characteristics (r : Record) : String × Option ValueType × String × Kind :=
  (r.name, r.type, r.usage, r.kind)

/-- What a declaration is registered with beside its default: its name and type, a usage, and the kind of the type. -/
def Declaration.characteristics (d : Declaration) (usage : String) : String × Option ValueType × String × Kind :=
  (d.parameterName, d.type, usage, (d.type.map (·.kind)).getD .flag)

theorem Record.characteristics_of_ofDeclaration {d : Declaration} {usage : String} {r : Record}
    (h : ofDeclaration d usage = .ok r) : r.characteristics = d.characteristics usage := by
  obtain ⟨text, -, htext⟩ := bind_eq_ok.mp h
  obtain rfl := Except.ok.inj htext
  rfl

/-! ## What is admitted -/

namespace Registry

section

variable {φ : Type} {reg : Registry φ}

/-- Under a canonical name an open registry admits a new record, and one that is the same as the record that has the name. -/
theorem admits_of_open (ho : reg.isOpen = true) {r : Record} (hname : Spelling.canonicalize true r.name = .ok r.name) :
    reg.admits r = match reg.find? r.name with
      | none => .ok true
      | some known => if known.same r then .ok false else .error (.conflict r.name) := by
  rw [admits, requireOpen, if_pos ho, hname]
  cases hfind : reg.find? r.name with
  | none => simp [Except.mapError, bind, Except.bind, pure, Except.pure]
  | some known => simp [Except.mapError, bind, Except.bind, pure, Except.pure, throw, throwThe, MonadExceptOf.throw]

/-- What is admitted has a canonical name, and the registry is open. -/
theorem open_of_admits {r : Record} {new : Bool} (h : reg.admits r = .ok new) :
    reg.isOpen = true ∧ Spelling.canonicalize true r.name = .ok r.name := by
  obtain ⟨_, ho, h⟩ := bind_eq_ok.mp h
  obtain ⟨canonical, hc, h⟩ := bind_eq_ok.mp h
  have hopen : reg.isOpen = true := by
    by_contra hclosed
    simp [requireOpen, hclosed] at ho
  refine ⟨hopen, ?_⟩
  by_cases hname : canonical = r.name
  · rw [mapError_eq_ok.mp hc, hname]
  · simp [hname, throw, throwThe, MonadExceptOf.throw, bind, Except.bind] at h

/-- Changing a record without its characteristics keeps those of every name. -/
theorem characteristics_modify (n m : String) {f : Record → Record} (hf : ∀ r, (f r).characteristics = r.characteristics) :
    ((reg.modify n f).find? m).map Record.characteristics = (reg.find? m).map Record.characteristics := by
  rw [find?_modify_eq reg n m fun r => congrArg Prod.fst (hf r), Option.map_map]
  congr 1
  funext r
  rw [Function.comp_apply]
  split
  · exact hf r
  · rfl

end

end Registry

namespace Context

/-! ## One registration -/

/-- While the context is open, registering a name again changes nothing. It succeeds exactly when it gives the name of the type
and the usage that are registered, and otherwise there is a conflict. -/
theorem register_again {ctx : Context} (h : ctx.registry.Valid) (ho : ctx.registry.isOpen = true) {d : Declaration}
    {usage text : String} (htext : d.value.toText = .ok text) {known : Record}
    (hknown : ctx.registry.find? d.parameterName = some known) :
    ctx.register (.declared d) usage =
      (ctx, if known.typeName = d.typeName ∧ known.usage = usage then none else some (.registry (.conflict d.parameterName))) := by
  let r : Record := ⟨d.parameterName, d.type, usage, text, false⟩
  have hr : recordOf (.declared d) usage = .ok r := mapError_eq_ok.mpr (Record.ofDeclaration_of_toText htext usage)
  have hmem : r.name ∈ ctx.registry.names := Registry.exists_find?_iff.mp ⟨known, hknown⟩
  have hadmits := Registry.admits_of_open ho (h.canonical r.name hmem)
  rw [show ctx.registry.find? r.name = some known from hknown] at hadmits
  have hsame : known.same r = true ↔ known.typeName = d.typeName ∧ known.usage = usage := by
    have hname : known.name = r.name := Registry.name_of_find? hknown
    rw [Record.same, Bool.and_eq_true, Bool.and_eq_true, beq_iff_eq, beq_iff_eq, beq_iff_eq, and_iff_right hname]
    rfl
  by_cases hs : known.same r = true
  · rw [if_pos (hsame.mp hs), register_of_not_new hr (by simp [hadmits, hs]), hadmits]
    simp [hs, errorOf?]
  · rw [if_neg (mt hsame.mpr hs), register_of_not_new hr (by simp [hadmits, hs]), hadmits]
    simp [hs, errorOf?, r]

/-- A registration is refused, or its name is known, and then nothing changes; or the record of the declaration is a new one. -/
theorem register_cases (ctx : Context) (d : Declaration) (usage : String) :
    (∃ failure, ctx.register (.declared d) usage = (ctx, some failure)) ∨
      (ctx.register (.declared d) usage = (ctx, none) ∧ d.parameterName ∈ ctx.registry.names) ∨
        ∃ c r, ctx.register (.declared d) usage = (c, none) ∧ Record.ofDeclaration d usage = .ok r ∧
          r.name ∉ ctx.registry.names ∧ c.registry.records = ctx.registry.records ++ [r] := by
  cases hr : Record.ofDeclaration d usage with
  | error e =>
    left
    rw [register, recordOf, hr]
    exact ⟨_, rfl⟩
  | ok r =>
    have hrecord : recordOf (.declared d) usage = .ok r := mapError_eq_ok.mpr hr
    have hname := Record.name_of_ofDeclaration hr
    cases hadmits : ctx.registry.admits r with
    | error e =>
      left
      rw [register_of_not_new hrecord (by simp [hadmits]), hadmits]
      exact ⟨_, rfl⟩
    | ok new =>
      obtain ⟨ho, hcanonical⟩ := Registry.open_of_admits hadmits
      right
      by_cases hmem : r.name ∈ ctx.registry.names
      · left
        have hnew : ctx.registry.admits r ≠ .ok true := fun h => (Registry.admits_eq_true_iff.mp h).2.2 hmem
        rw [register_of_not_new hrecord hnew, hadmits]
        exact ⟨rfl, hname ▸ hmem⟩
      · right
        obtain ⟨c, hregister, -, hrecords, -⟩ := register_new ho hr hcanonical hmem
        exact ⟨c, r, hregister, rfl, hmem, hrecords⟩

/-! ## Runs -/

/-- The declaration and the usage with which an operation registers a name, if it does. -/
def registers? (ctx : Context) (name : String) : Operation → Option (Declaration × String)
  | .register (.declared d) usage =>
    if d.parameterName = name ∧ (ctx.register (.declared d) usage).2 = none then some (d, usage) else none
  | _ => none

/-- The declaration and the usage of the first of some operations that registers a name, if one does. -/
def firstRegistration (name : String) (ctx : Context) : List Operation → Option (Declaration × String)
  | [] => none
  | op :: ops => (ctx.registers? name op).or (firstRegistration name (ctx.after op) ops)

/-- The context after operations, one after the other. -/
def afterAll (ctx : Context) (ops : List Operation) : Context :=
  ops.foldl after ctx

/-- What is registered of a name beside its default. -/
def characteristics? (ctx : Context) (name : String) : Option (String × Option ValueType × String × Kind) :=
  (ctx.registry.find? name).map Record.characteristics

/-- Only the registration of a declaration registers a name. -/
theorem registers?_of_not_register (ctx : Context) {op : Operation} (h : ∀ d usage, op ≠ .register (.declared d) usage)
    (name : String) : ctx.registers? name op = none := by
  unfold registers?
  split
  · exact absurd rfl (h _ _)
  · rfl

/-- Operations that neither register a declaration nor clear the context leave what is registered beside defaults. -/
theorem characteristics?_of_not_register (ctx : Context) {op : Operation} (hreset : op ≠ .reset)
    (h : ∀ d usage, op ≠ .register (.declared d) usage) (name : String) :
    (ctx.after op).characteristics? name = ctx.characteristics? name := by
  have heffect := ctx.effect_after op
  rw [characteristics?, characteristics?]
  generalize (ctx.after op).registry = reg at heffect ⊢
  cases heffect with
  | nothing => rfl
  | @register ref _ _ hr =>
    cases ref with
    | named n => cases hr
    | declared d => exact absurd rfl (h d _)
  | hide => exact Registry.characteristics_modify _ name fun _ => rfl
  | endRegistration => rfl
  | reset => exact absurd rfl hreset
  | setDefault => exact Registry.characteristics_modify _ name fun _ => rfl

/-- A registration leaves what is registered of every name, but for a new name, which has what it is registered with. -/
theorem characteristics?_register (ctx : Context) (d : Declaration) (usage name : String) :
    (ctx.after (.register (.declared d) usage)).characteristics? name =
      (ctx.characteristics? name).or
        ((ctx.registers? name (.register (.declared d) usage)).map fun d => d.1.characteristics d.2) := by
  rw [after, registers?]
  obtain ⟨failure, hregister⟩ | ⟨hregister, hmem⟩ | ⟨c, r, hregister, hr, hnew, hrecords⟩ := ctx.register_cases d usage
  · have hnot : ¬(d.parameterName = name ∧ some failure = none) := by simp
    rw [hregister, if_neg hnot, Option.map_none, Option.or_none]
  · rw [hregister]
    by_cases hname : d.parameterName = name
    · obtain ⟨known, hknown⟩ := Registry.exists_find?_iff.mpr (hname ▸ hmem)
      rw [characteristics?, hknown, Option.map_some, Option.some_or]
    · rw [if_neg fun h => hname h.1, Option.map_none, Option.or_none]
  · rw [hregister, characteristics?, Registry.find?_of_records_append hrecords, Option.map_or, Record.name_of_ofDeclaration hr]
    congr 1
    by_cases hname : d.parameterName = name
    · rw [if_pos hname, if_pos ⟨hname, rfl⟩]
      exact congrArg some (Record.characteristics_of_ofDeclaration hr)
    · rw [if_neg hname, if_neg fun h => hname h.1]
      rfl

/-- A name keeps what is registered, and an unregistered one has what is registered with it. -/
theorem characteristics?_after (ctx : Context) {op : Operation} (hreset : op ≠ .reset) (name : String) :
    (ctx.after op).characteristics? name =
      (ctx.characteristics? name).or ((ctx.registers? name op).map fun d => d.1.characteristics d.2) := by
  by_cases h : ∃ d usage, op = .register (.declared d) usage
  · obtain ⟨d, usage, rfl⟩ := h
    exact ctx.characteristics?_register d usage name
  · have hnot : ∀ d usage, op ≠ .register (.declared d) usage := fun d usage e => h ⟨d, usage, e⟩
    rw [characteristics?_of_not_register ctx hreset hnot, registers?_of_not_register ctx hnot, Option.map_none, Option.or_none]

/-- Over operations without clearing a name keeps what is registered, and an unregistered one has what the first of them registers
with it. -/
theorem characteristics?_afterAll (ctx : Context) {ops : List Operation} (hreset : .reset ∉ ops) (name : String) :
    (ctx.afterAll ops).characteristics? name =
      (ctx.characteristics? name).or ((firstRegistration name ctx ops).map fun d => d.1.characteristics d.2) := by
  induction ops generalizing ctx with
  | nil => rw [firstRegistration, Option.map_none, Option.or_none, afterAll, List.foldl_nil]
  | cons op ops ih =>
    rw [List.mem_cons, not_or] at hreset
    obtain ⟨hop, hops⟩ := hreset
    have hrest := ih (ctx.after op) hops
    rw [firstRegistration, Option.map_or, ← Option.or_assoc, ← characteristics?_after ctx (Ne.symm hop), ← hrest]
    rfl

/-- Take any reachable context. While it is open, registering a name that is registered leaves all of the context: the records in
their order, with the defaults that they have and with what is hidden, the pending finalizers, and the tree. It succeeds exactly
when it gives the registered usage and the registered name of the type; otherwise there is a conflict. Over any operations but
clearing, a registered name keeps its type, usage and kind, and any other name is registered in the end exactly if one of the
operations registers it, and then with what the first of these gives. -/
theorem first_registration_wins {ctx : Context} (h : ctx.Reachable) :
    (∀ d usage text known, ctx.registry.phase = .opened → d.value.toText = .ok text →
        ctx.registry.find? d.parameterName = some known →
        ctx.register (.declared d) usage =
          (ctx, if known.typeName = d.typeName ∧ known.usage = usage then none
            else some (.registry (.conflict d.parameterName)))) ∧
      ∀ ops, .reset ∉ ops → ∀ name,
        (ctx.afterAll ops).characteristics? name =
          (ctx.characteristics? name).or ((firstRegistration name ctx ops).map fun d => d.1.characteristics d.2) := by
  refine ⟨fun d usage text known hphase htext hknown => ?_, fun ops hreset name => ctx.characteristics?_afterAll hreset name⟩
  have hopen : ctx.registry.isOpen = true := by simp [Registry.isOpen, hphase]
  exact register_again h.valid.registry hopen htext hknown

/-- A hidden parameter with another default than was declared, which is declared again with a third; and one that is declared twice
in a run. -/
theorem first_registration_wins_of_hidden :
    let count : Declaration := ⟨"Count", none, ⟨some (.int 3), none⟩, []⟩
    let again : Declaration := ⟨"Items", some "Count", ⟨some (.int 8), none⟩, []⟩
    let limit : Declaration := ⟨"Limit", none, ⟨some (.int 9), none⟩, []⟩
    let flag : Declaration := ⟨"Limit", none, ⟨some (.bool true), none⟩, []⟩
    let hidden := (empty.after (.register (.declared count) "How many.")).after (.hide (.named "Count"))
    let ctx := hidden.after (.setDefault (.named "Count") (.int 5))
    let ops : List Operation := [.register (.declared again) "How much.", .register (.declared limit) "At most.",
      .register (.declared flag) "Whether to stop.", .setDefault (.named "Limit") (.int 10), .endRegistration]
    ctx.registry.records = [⟨"Count", some .int, "How many.", "5", true⟩] ∧
      ctx.register (.declared again) "How many." = (ctx, none) ∧
      ctx.register (.declared again) "How much." = (ctx, some (.registry (.conflict "Count"))) ∧
      (ctx.afterAll ops).characteristics? "Count" = some ("Count", some .int, "How many.", .integer) ∧
      (ctx.afterAll ops).characteristics? "Limit" = some ("Limit", some .int, "At most.", .integer) := by
  intro count again limit flag hidden ctx ops
  have hreach : ctx.Reachable := ((Reachable.empty.after _).after _).after _
  obtain ⟨hagain, hrun⟩ := first_registration_wins hreach
  have hregister := fun usage => hagain again usage "8" ⟨"Count", some .int, "How many.", "5", true⟩ (by decide +kernel)
    (by decide +kernel) (by decide +kernel)
  have hreset : .reset ∉ ops := by simp [ops]
  refine ⟨by decide +kernel, ?_, ?_, ?_, ?_⟩
  · exact (hregister "How many.").trans (by rw [if_pos (by decide +kernel)])
  · exact (hregister "How much.").trans (by rw [if_neg (by decide +kernel)]; rfl)
  · have hfind : ctx.registry.find? "Count" = some ⟨"Count", some .int, "How many.", "5", true⟩ := by decide +kernel
    have hcount : ctx.characteristics? "Count" = some ("Count", some .int, "How many.", .integer) := by
      rw [characteristics?, hfind]
      rfl
    rw [hrun ops hreset "Count", hcount, Option.some_or]
  · have hfind : ctx.registry.find? "Limit" = none := by decide +kernel
    have hother : ctx.registers? "Limit" (.register (.declared again) "How much.") = none := by
      rw [registers?, if_neg (by decide +kernel)]
    have hlimit : (ctx.after (.register (.declared again) "How much.")).registers? "Limit"
        (.register (.declared limit) "At most.") = some (limit, "At most.") := by
      rw [registers?, if_pos (by decide +kernel)]
    rw [hrun ops hreset "Limit", characteristics?, hfind, firstRegistration, hother, firstRegistration, hlimit]
    rfl

end Context

end RunParams

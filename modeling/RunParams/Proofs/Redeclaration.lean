import RunParams.Proofs.Closing

/-!
# Declaring parameters again

Every record of a context has been declared. Registering its declarations anew, in any order, makes a registry with the same names
and types, and with the defaults that were declared; where these can be read, a parameter has the value of its text in the tree.
-/

namespace RunParams

/-! ## What is read of a record -/

/-- A record has a value in a tree exactly when its default can be read, and its text in the tree, or else the default, is read as
the value. -/
theorem Context.valueOf_eq_ok_iff {tree : Tree} {r : Record} {v : Value} :
    valueOf tree r = .ok v ↔ r.Accepts r.default ∧ r.parse ((tree.get? r.name).getD r.default) "" = .ok v := by
  constructor
  · intro h
    have hd : r.Accepts r.default := (exists_valueOf_iff.mp ⟨v, h⟩).1
    exact ⟨hd, valueOf_of_accepts hd ▸ h⟩
  · rintro ⟨hd, h⟩
    rw [valueOf_of_accepts hd, h]

/-- A value of a registered parameter is that of its record, be the access checked or not. -/
theorem Context.valueOf_of_get {ctx : Context} {ref : Reference} {r : Record} (hr : ctx.registry.find? ref.name = some r)
    {checked : Bool} {v : Value} (h : ctx.get ref checked = .ok v) : valueOf ctx.tree r = .ok v := by
  obtain ⟨s, hs, hv⟩ := bind_eq_ok.mp h
  have hsr : s = r := by
    cases checked with
    | true =>
      obtain ⟨-, -, hlookup⟩ := bind_eq_ok.mp hs
      rw [mapError_eq_ok, Registry.lookup, hr] at hlookup
      exact (Except.ok.inj hlookup).symm
    | false =>
      simp only [info, Bool.false_eq_true, if_false, hr] at hs
      exact (Except.ok.inj hs).symm
  rw [← hsr]
  exact mapError_eq_ok.mp hv

/-! ## Declarations of records -/

/-- A declaration has a record if its default has a text. -/
theorem Record.ofDeclaration_of_toText {d : Declaration} {text : String} (htext : d.value.toText = .ok text) (usage : String) :
    ofDeclaration d usage = .ok ⟨d.parameterName, d.type, usage, text, false⟩ := by
  rw [ofDeclaration, htext]
  rfl

/-- The record of a declaration has its name. -/
theorem Record.name_of_ofDeclaration {d : Declaration} {usage : String} {r : Record} (h : ofDeclaration d usage = .ok r) :
    r.name = d.parameterName := by
  obtain ⟨text, -, htext⟩ := bind_eq_ok.mp h
  obtain rfl := Except.ok.inj htext
  rfl

/-- A record comes from a declaration and a usage, but for its default and for whether it is hidden. -/
def Record.DeclaredBy (r : Record) (d : Declaration × String) : Prop :=
  ∃ default, Record.ofDeclaration d.1 d.2 = .ok { r with default := default, hidden := false }

/-- Declarations declare records when each record comes from one of them, and each of them has a record. -/
structure Declares (decls : List (Declaration × String)) (records : List Record) : Prop where
  complete : ∀ r ∈ records, ∃ d ∈ decls, r.DeclaredBy d
  sound : ∀ d ∈ decls, ∃ r ∈ records, r.DeclaredBy d

namespace Context

/-- Every record of a reachable context comes from a declaration. -/
theorem Reachable.exists_declaredBy {ctx : Context} (h : ctx.Reachable) :
    ∀ r ∈ ctx.registry.records, ∃ d, r.DeclaredBy d := by
  induction h with
  | empty => exact nofun
  | @after ctx _ op ih =>
    have heffect := ctx.effect_after op
    generalize (ctx.after op).registry = reg at heffect
    cases heffect with
    | nothing => exact ih
    | @register ref usage r hr _ _ _ =>
      intro s hs
      rcases List.mem_append.mp hs with hs | hs
      · exact ih s hs
      · obtain rfl := List.mem_singleton.mp hs
        cases ref with
        | named name => cases hr
        | declared d =>
          have hd := mapError_eq_ok.mp hr
          obtain ⟨text, -, htext⟩ := bind_eq_ok.mp hd
          obtain rfl := Except.ok.inj htext
          exact ⟨(d, usage), text, hd⟩
    | hide =>
      intro s hs
      obtain ⟨r, hr, rfl⟩ := List.mem_map.mp hs
      obtain ⟨d, default, hd⟩ := ih r hr
      refine ⟨d, default, ?_⟩
      split <;> exact hd
    | endRegistration => exact ih
    | reset => exact nofun
    | setDefault =>
      intro s hs
      obtain ⟨r, hr, rfl⟩ := List.mem_map.mp hs
      obtain ⟨d, default, hd⟩ := ih r hr
      refine ⟨d, default, ?_⟩
      split <;> exact hd

/-- The records of a reachable context have declarations. -/
theorem Reachable.exists_declares {ctx : Context} (h : ctx.Reachable) : ∃ decls, Declares decls ctx.registry.records := by
  choose decl hdecl using h.exists_declaredBy
  refine ⟨ctx.registry.records.attach.map fun r => decl r.1 r.2, ?_, ?_⟩
  · exact fun r hr => ⟨decl r hr, List.mem_map.mpr ⟨⟨r, hr⟩, List.mem_attach _ _, rfl⟩, hdecl r hr⟩
  · intro d hd
    obtain ⟨r, -, rfl⟩ := List.mem_map.mp hd
    exact ⟨r.1, r.2, hdecl r.1 r.2⟩

/-! ## Registering declarations -/

/-- Registers declarations one after the other. -/
def registerAll (ctx : Context) (decls : List (Declaration × String)) : Context :=
  decls.foldl (fun c d => c.after (.register (.declared d.1) d.2)) ctx

/-- Once a new declaration is registered and registration has ended, the registry is closed, its record is found, and the tree is
the one of before, whether registration ended well or not. -/
theorem ended_of_register_new {ctx : Context} (ho : ctx.registry.isOpen = true) {d : Declaration} {usage : String} {r : Record}
    (hr : Record.ofDeclaration d usage = .ok r) (hname : Spelling.canonicalize true r.name = .ok r.name)
    (hnew : r.name ∉ ctx.registry.names) :
    let registered := ctx.register (.declared d) usage
    let ended := registered.1.endRegistration.1
    registered.2 = none ∧ ended.registry.isOpen = false ∧ ended.registry.find? r.name = some r ∧ ended.tree = ctx.tree := by
  obtain ⟨c, hregister, hopen, hrecords, htree⟩ := register_new ho hr hname hnew
  have hfind : c.registry.find? r.name = some r := by
    rw [Registry.find?_of_records_append hrecords, Registry.find?_eq_none_iff.mpr hnew, if_pos rfl, Option.none_or]
  rw [hregister]
  dsimp only
  rw [endRegistration_fst hopen]
  exact ⟨rfl, rfl, hfind, htree⟩

/-- A registration that adds no record leaves the context; it ends well if the record is admitted nevertheless. -/
theorem register_of_not_new {ctx : Context} {ref : Reference} {usage : String} {r : Record} (hr : recordOf ref usage = .ok r)
    (hnew : ctx.registry.admits r ≠ .ok true) :
    ctx.register ref usage = (ctx, (errorOf? (ctx.registry.admits r)).map .registry) := by
  rw [register, hr]
  dsimp only
  rw [Registry.register]
  cases hadmits : ctx.registry.admits r with
  | error e => rfl
  | ok new =>
    cases new with
    | true => exact absurd hadmits hnew
    | false => rfl

/-- Registering a declaration with a name that is registered leaves the context, whether it is refused or not. -/
theorem register_known {ctx : Context} {d : Declaration} {usage : String} {r : Record}
    (hr : Record.ofDeclaration d usage = .ok r) (hknown : r.name ∈ ctx.registry.names) :
    (ctx.register (.declared d) usage).1 = ctx := by
  have hrecord : recordOf (.declared d) usage = .ok r := mapError_eq_ok.mpr hr
  have hnew : ctx.registry.admits r ≠ .ok true := by
    intro hadmits
    exact (Registry.admits_eq_true_iff.mp hadmits).2.2 hknown
  rw [register_of_not_new hrecord hnew]

/-- Registering a declaration with a canonical name in an open context makes its name known, and adds no record but its own. -/
theorem register_declared {ctx : Context} (ho : ctx.registry.isOpen = true) {d : Declaration} {usage : String} {r : Record}
    (hr : Record.ofDeclaration d usage = .ok r) (hname : Spelling.canonicalize true r.name = .ok r.name) :
    let c := ctx.after (.register (.declared d) usage)
    c.tree = ctx.tree ∧ c.registry.isOpen = true ∧ (∀ s ∈ c.registry.records, s ∈ ctx.registry.records ∨ s = r) ∧
      ∀ n, n ∈ ctx.registry.names ∨ n = r.name → n ∈ c.registry.names := by
  by_cases hmem : r.name ∈ ctx.registry.names
  · have hc : ctx.after (.register (.declared d) usage) = ctx := register_known hr hmem
    rw [hc]
    refine ⟨rfl, ho, fun s hs => .inl hs, ?_⟩
    rintro n (hn | rfl)
    · exact hn
    · exact hmem
  · obtain ⟨c, hregister, hopen, hrecords, htree⟩ := register_new ho hr hname hmem
    have hc : ctx.after (.register (.declared d) usage) = c := congrArg Prod.fst hregister
    rw [hc]
    refine ⟨htree, hopen, fun s hs => by simpa [hrecords] using hs, fun n hn => ?_⟩
    simpa [Registry.names, hrecords] using hn

/-- After declarations with canonical names have been registered in an open context, the names are those of before and those of
the declarations, and every new record is that of a declaration. -/
theorem registerAll_spec {ctx : Context} (ho : ctx.registry.isOpen = true) {decls : List (Declaration × String)}
    (h : ∀ d ∈ decls, ∃ r, Record.ofDeclaration d.1 d.2 = .ok r ∧ Spelling.canonicalize true r.name = .ok r.name) :
    (ctx.registerAll decls).tree = ctx.tree ∧ (ctx.registerAll decls).registry.isOpen = true ∧
      (∀ r ∈ (ctx.registerAll decls).registry.records,
        r ∈ ctx.registry.records ∨ ∃ d ∈ decls, Record.ofDeclaration d.1 d.2 = .ok r) ∧
      ∀ n, n ∈ ctx.registry.names ∨ (∃ d ∈ decls, ∃ r, Record.ofDeclaration d.1 d.2 = .ok r ∧ r.name = n) →
        n ∈ (ctx.registerAll decls).registry.names := by
  induction decls generalizing ctx with
  | nil => exact ⟨rfl, ho, fun r hr => .inl hr, by simp [registerAll]⟩
  | cons d decls ih =>
    obtain ⟨r, hr, hname⟩ := h d (by simp)
    obtain ⟨htree, hopen, hrecords, hnames⟩ := register_declared ho hr hname
    obtain ⟨htree', hopen', hrecords', hnames'⟩ := ih hopen fun e he => h e (List.mem_cons_of_mem _ he)
    refine ⟨htree'.trans htree, hopen', fun s hs => ?_, ?_⟩
    · rcases hrecords' s hs with hs | ⟨e, he, hs⟩
      · rcases hrecords s hs with hs | rfl
        · exact .inl hs
        · exact .inr ⟨d, by simp, hr⟩
      · exact .inr ⟨e, List.mem_cons_of_mem _ he, hs⟩
    · rintro n (hn | ⟨e, he, s, hs, hn⟩)
      · exact hnames' n (.inl (hnames n (.inl hn)))
      · rcases List.mem_cons.mp he with rfl | he
        · obtain rfl := Except.ok.inj (hr.symm.trans hs)
          exact hnames' n (.inl (hnames n (.inr hn.symm)))
        · exact hnames' n (.inr ⟨e, he, s, hs, hn⟩)

/-- The declarations of the records of a context have records with canonical names. -/
theorem Valid.canonical_of_declares {ctx : Context} (h : ctx.Valid) {decls : List (Declaration × String)}
    (hdecls : Declares decls ctx.registry.records) :
    ∀ d ∈ decls, ∃ s, Record.ofDeclaration d.1 d.2 = .ok s ∧ Spelling.canonicalize true s.name = .ok s.name := by
  intro d hd
  obtain ⟨q, hq, default, hs⟩ := hdecls.sound d hd
  exact ⟨_, hs, h.registry.canonical q.name (List.mem_map_of_mem hq)⟩

/-- Once the declarations of the records of a context have been registered in a context without records, each record has one of
the same name and type there, which comes from one of the declarations. -/
theorem Valid.exists_redeclared {ctx c : Context} (h : ctx.Valid) {decls : List (Declaration × String)}
    (hdecls : Declares decls ctx.registry.records) (hc : c.registry = .empty) {r : Record} (hr : r ∈ ctx.registry.records) :
    ∃ s, (c.registerAll decls).registry.find? r.name = some s ∧ s.type = r.type ∧
      ∃ d ∈ decls, Record.ofDeclaration d.1 d.2 = .ok s := by
  have hopen : c.registry.isOpen = true := by
    rw [hc]
    rfl
  obtain ⟨-, -, hrecords, hnames⟩ := registerAll_spec hopen (h.canonical_of_declares hdecls)
  have hmem : r.name ∈ (c.registerAll decls).registry.names := by
    obtain ⟨d, hd, default, hs⟩ := hdecls.complete r hr
    exact hnames r.name (.inr ⟨d, hd, _, hs, rfl⟩)
  obtain ⟨s, hs⟩ := Registry.exists_find?_iff.mpr hmem
  refine ⟨s, hs, ?_⟩
  rcases hrecords s (Registry.mem_of_find? hs) with hold | ⟨d, hd, hds⟩
  · rw [hc] at hold
    cases hold
  · -- The declaration has a record of the context, and names tell the records apart.
    obtain ⟨q, hq, default, hdq⟩ := hdecls.sound d hd
    obtain rfl := Except.ok.inj (hdq.symm.trans hds)
    have hname := Registry.name_of_find? hs
    dsimp only at hname
    have hqr : q = r := by
      have hfind := Registry.find?_of_mem h.registry.nodup hq
      rw [hname, Registry.find?_of_mem h.registry.nodup hr] at hfind
      exact (Option.some.inj hfind).symm
    exact ⟨hqr ▸ rfl, d, hd, hds⟩

/-- A parameter keeps its value when it is declared again over a tree that has its text, if the default that is declared can be
read. -/
theorem Valid.get_redeclared {ctx c : Context} (h : ctx.Valid) {decls : List (Declaration × String)}
    (hdecls : Declares decls ctx.registry.records) (hc : c.registry = .empty) {ref : Reference} {r : Record}
    (hr : ctx.registry.find? ref.name = some r) (htext : c.tree.get? r.name = some ((ctx.tree.get? r.name).getD r.default))
    (hdefault : ∀ d ∈ decls, ∀ s, Record.ofDeclaration d.1 d.2 = .ok s → s.name = r.name → s.Accepts s.default)
    {checked : Bool} {v : Value} (hget : ctx.get ref checked = .ok v) (checked' : Bool) :
    ((c.registerAll decls).after .endRegistration).get ref checked' = .ok v := by
  have hopen : c.registry.isOpen = true := by
    rw [hc]
    rfl
  obtain ⟨htree, hopen', -, -⟩ := registerAll_spec hopen (h.canonical_of_declares hdecls)
  obtain ⟨s, hs, htype, d, hd, hds⟩ := h.exists_redeclared hdecls hc (Registry.mem_of_find? hr)
  have hname : s.name = r.name := Registry.name_of_find? hs
  have hclosed : (c.registerAll decls).after .endRegistration =
      ⟨(c.registerAll decls).registry.afterClose, (c.registerAll decls).tree⟩ := endRegistration_fst hopen'
  have hfind : (c.registerAll decls).registry.afterClose.find? ref.name = some s := by
    rw [← Registry.name_of_find? hr]
    exact hs
  have hvalue : valueOf (c.registerAll decls).tree s = .ok v := by
    obtain ⟨-, hv⟩ := valueOf_eq_ok_iff.mp (valueOf_of_get hr hget)
    refine valueOf_eq_ok_iff.mpr ⟨hdefault d hd s hds hname, ?_⟩
    rw [htree, hname, htext, Option.getD_some, Record.parse_eq, htype, hname]
    exact hv
  have hclosing := @get_of_find? ⟨(c.registerAll decls).registry.afterClose, (c.registerAll decls).tree⟩ rfl ref s hfind checked'
  rw [hclosed, hclosing, hvalue]
  rfl

end Context

end RunParams

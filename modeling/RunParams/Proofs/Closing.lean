import RunParams.Proofs.Runs

/-!
# The end of registration

The end of registration reads every parameter back, first its default and then its text in the tree. It fails at the first that
cannot be read. If it does not fail, the defaults stay readable as long as the context is not cleared, and a parameter has no
value only when its text in the tree cannot be read.
-/

namespace RunParams

/-! ## Texts that can be read -/

namespace Record

/-- A text can be read as a value of the parameter. -/
def Accepts (r : Record) (text : String) : Prop :=
  ∃ v, r.parse text "" = .ok v

/-- A text is read as a value of the type, under the name of the parameter. -/
theorem parse_eq (r : Record) (text : String) : r.parse text "" = coerce r.type text r.name :=
  rfl

/-- How a text of a parameter is refused by its type. -/
inductive Refuses (r : Record) (text : String) : ReadError → Prop
  /-- The text is no value of the type. The error has the parameter, the name of the type and the text. -/
  | unfit {t : ValueType} (ht : r.type = some t) (h : t.read text = .error .unfit) :
    Refuses r text (.value ⟨r.name, r.typeName, text⟩)
  /-- The type raises another error, which is passed on. -/
  | fault {t : ValueType} (ht : r.type = some t) {e : Fault} (h : t.read text = .error (.fault e)) : Refuses r text (.fault e)

/-- Reading a text fails as its type refuses it. -/
theorem parse_eq_error_iff {r : Record} {text : String} {e : ReadError} : r.parse text "" = .error e ↔ r.Refuses text e := by
  rw [parse_eq]
  constructor
  · intro h
    cases ht : r.type with
    | none =>
      rw [ht] at h
      cases h
    | some t =>
      have hname : t.name = r.typeName := by rw [typeName, ht, Option.map_some, Option.getD_some]
      rw [ht, coerce] at h
      split at h
      · cases h
      · rename_i hread
        cases h
        rw [hname]
        exact .unfit ht hread
      · rename_i hread
        cases h
        exact .fault ht hread
  · intro h
    cases h with
    | unfit ht hread => simp only [ht, coerce, hread, typeName, Option.map_some, Option.getD_some]
    | fault ht hread => simp only [ht, coerce, hread]

/-- A text is refused, or else it can be read. -/
theorem not_accepts_iff {r : Record} {text : String} : ¬r.Accepts text ↔ ∃ e, r.Refuses text e := by
  simp only [← parse_eq_error_iff, Accepts]
  cases r.parse text "" <;> simp

theorem Refuses.not_accepts {r : Record} {text : String} {e : ReadError} (h : r.Refuses text e) : ¬r.Accepts text :=
  not_accepts_iff.mpr ⟨e, h⟩

end Record

/-- A type raises nothing but value, type and arithmetic errors for a text that it does not take. -/
def ValueType.Conforming (t : ValueType) : Prop :=
  ∀ text e, t.read text ≠ .error (.fault e)

/-- What is made of a text is no fault if reading the text is none. -/
theorem fitting_bind_ne_fault {α : Type} (x : Option α) (f : α → Value) (e : Fault) :
    (do return f (← fitting x) : Except Rejection Value) ≠ .error (.fault e) := by
  cases x <;> nofun

/-- The types of the language are conforming. -/
theorem ValueType.conforming_basic (t : BasicType) : (basic t).Conforming := by
  intro text e
  cases t with
  | noneType => nofun
  | bool => nofun
  | int => exact fitting_bind_ne_fault _ _ e
  | float => exact fitting_bind_ne_fault _ _ e
  | text => nofun
  | complex => exact fitting_bind_ne_fault _ (fun (re, im) => Value.complex re im) e
  | fraction => exact fitting_bind_ne_fault _ _ e
  | list => nofun
  | bytes => nofun

namespace Record

/-- The type of a parameter, if it has one, is conforming. -/
def Conforming (r : Record) : Prop :=
  ∀ t, r.type = some t → t.Conforming

/-- A text that a conforming type refuses is a value error. -/
theorem Refuses.eq_value {r : Record} {text : String} {e : ReadError} (h : r.Refuses text e) (hc : r.Conforming) :
    e = .value ⟨r.name, r.typeName, text⟩ := by
  cases h with
  | unfit => rfl
  | fault ht hread => exact absurd hread (hc _ ht text _)

/-- What an access to a parameter fails with because of a text: with the error that refuses it, and so, if the type is conforming,
with the value error that has the parameter, the type and the text. -/
structure FailsWith (r : Record) (text : String) (f : Failure) : Prop where
  refused : ∃ e, r.Refuses text e ∧ f = .read e
  conforming : r.Conforming → f = .read (.value ⟨r.name, r.typeName, text⟩)

theorem failsWith_iff {r : Record} {text : String} {f : Failure} : r.FailsWith text f ↔ ∃ e, r.Refuses text e ∧ f = .read e := by
  refine ⟨fun h => h.refused, fun h => ⟨h, fun hc => ?_⟩⟩
  obtain ⟨e, hrefuses, rfl⟩ := h
  rw [hrefuses.eq_value hc]

/-- The default of a parameter can be read, and so can its text in a tree, if it has one. -/
def Sound (tree : Tree) (r : Record) : Prop :=
  r.Accepts r.default ∧ ∀ text, tree.get? r.name = some text → r.Accepts text

/-- The first text of a parameter that cannot be read: its default, or else its text in a tree. -/
inductive Unreadable (tree : Tree) (r : Record) : String → Prop
  | default (h : ¬r.Accepts r.default) : Unreadable tree r r.default
  | runtime {text : String} (hd : r.Accepts r.default) (ht : tree.get? r.name = some text) (h : ¬r.Accepts text) :
      Unreadable tree r text

end Record

namespace Context

/-- A record has no value in a tree exactly when one of its texts cannot be read, the first of which is refused with the error. -/
theorem valueOf_eq_error_iff {tree : Tree} {r : Record} {e : ReadError} :
    valueOf tree r = .error e ↔ ∃ text, r.Unreadable tree text ∧ r.Refuses text e := by
  rw [valueOf, Record.defaultValue]
  constructor
  · intro h
    cases hd : r.parse r.default "" with
    | error e' =>
      rw [hd] at h
      cases h
      have hrefuses := Record.parse_eq_error_iff.mp hd
      exact ⟨r.default, .default hrefuses.not_accepts, hrefuses⟩
    | ok d =>
      rw [hd] at h
      cases ht : tree.get? r.name with
      | none =>
        rw [ht] at h
        cases h
      | some text =>
        rw [ht] at h
        have hrefuses := Record.parse_eq_error_iff.mp h
        exact ⟨text, .runtime ⟨d, hd⟩ ht hrefuses.not_accepts, hrefuses⟩
  · rintro ⟨text, h, hrefuses⟩
    cases h with
    | default hnot =>
      rw [Record.parse_eq_error_iff.mpr hrefuses]
      rfl
    | runtime hd ht hnot =>
      obtain ⟨d, hd⟩ := hd
      rw [hd, ht]
      exact Record.parse_eq_error_iff.mpr hrefuses

/-- The same of an access, which fails as the first text does that cannot be read. -/
theorem valueOf_mapError_eq_error_iff {tree : Tree} {r : Record} {f : Failure} :
    (valueOf tree r).mapError .read = .error f ↔ ∃ text, r.Unreadable tree text ∧ r.FailsWith text f := by
  rw [mapError_eq_error]
  simp only [valueOf_eq_error_iff, Record.failsWith_iff]
  constructor
  · rintro ⟨e, ⟨text, htext, hrefuses⟩, rfl⟩
    exact ⟨text, htext, e, hrefuses, rfl⟩
  · rintro ⟨text, htext, e, hrefuses, rfl⟩
    exact ⟨e, ⟨text, htext, hrefuses⟩, rfl⟩

/-- A record has a value in a tree exactly when all its texts can be read. -/
theorem exists_valueOf_iff {tree : Tree} {r : Record} : (∃ v, valueOf tree r = .ok v) ↔ r.Sound tree := by
  constructor
  · rintro ⟨v, hv⟩
    obtain ⟨d, hd, h⟩ := bind_eq_ok.mp hv
    refine ⟨⟨d, hd⟩, ?_⟩
    intro text ht
    rw [ht] at h
    exact ⟨v, h⟩
  · rintro ⟨⟨d, hd⟩, htext⟩
    cases ht : tree.get? r.name with
    | none =>
      refine ⟨d, bind_eq_ok.mpr ⟨d, hd, ?_⟩⟩
      rw [ht]
      rfl
    | some text =>
      obtain ⟨v, hv⟩ := htext text ht
      refine ⟨v, bind_eq_ok.mpr ⟨d, hd, ?_⟩⟩
      rw [ht]
      exact hv

/-- Where the default of a record can be read, its value in a tree is its text there, or else the default, read as a value. -/
theorem valueOf_of_accepts {tree : Tree} {r : Record} (h : r.Accepts r.default) :
    valueOf tree r = r.parse ((tree.get? r.name).getD r.default) "" := by
  obtain ⟨d, hd⟩ := h
  rw [valueOf, Record.defaultValue, hd]
  cases tree.get? r.name with
  | none => exact hd.symm
  | some text => rfl

/-! ## Reading back -/

/-- A parameter is read back exactly when all its texts can be read. -/
theorem Valid.readBack_eq_none_iff {ctx : Context} (h : ctx.Valid) (hc : ctx.registry.isOpen = false) {r : Record}
    (hr : r ∈ ctx.registry.records) : errorOf? (ctx.get (.named r.name) true) = none ↔ r.Sound ctx.tree := by
  have hfind : ctx.registry.find? (Reference.named r.name).name = some r := Registry.find?_of_mem h.registry.nodup hr
  rw [errorOf?_eq_none_iff, get_of_find? hc hfind]
  simp only [mapError_eq_ok, exists_valueOf_iff]

/-- Ending registration of an open context leaves the records and the tree, and no pending finalizer. -/
theorem endRegistration_fst {ctx : Context} (ho : ctx.registry.isOpen = true) :
    ctx.endRegistration.1 = ⟨ctx.registry.afterClose, ctx.tree⟩ := by
  obtain ⟨-, hctx⟩ | ⟨hc, -⟩ := ctx.endRegistration_registry
  · exact hctx
  · simp [ho] at hc

/-- Registration ends with the error of the first record that has no value. -/
theorem endRegistration_snd {ctx : Context} (h : ctx.registry.Valid) (ho : ctx.registry.isOpen = true) :
    ctx.endRegistration.2 =
      ctx.registry.records.findSome? fun r => errorOf? (ctx.endRegistration.1.get (.named r.name) true) := by
  have hpending : ctx.registry.pending = ctx.registry.records.map (·.name) := by
    rw [h.pending, if_pos ho]
    rfl
  have hfinish := (finish_readBack ctx.tree ctx.registry.afterClose ctx.registry.pending).2
  rw [hpending, List.findSome?_map] at hfinish
  rw [endRegistration_fst ho]
  rw [endRegistration, Registry.close_eq, if_pos ho, hpending]
  exact hfinish

/-- Registration ends well exactly when every default can be read, and the text that the tree has for a parameter. -/
theorem Valid.endRegistration_eq_none_iff {ctx : Context} (h : ctx.Valid) (ho : ctx.registry.isOpen = true) :
    ctx.endRegistration.2 = none ↔ ∀ r ∈ ctx.registry.records, r.Sound ctx.tree := by
  have hv : ctx.endRegistration.1.Valid := h.after .endRegistration
  rw [endRegistration_snd h.registry ho, List.findSome?_eq_none_iff]
  rw [endRegistration_fst ho] at hv ⊢
  exact forall₂_congr fun r hr => hv.readBack_eq_none_iff rfl hr

/-- What holds of a context once registration has ended well: the registry is closed, and every default can be read. -/
structure Ended (ctx : Context) : Prop where
  closed : ctx.registry.isOpen = false
  readable : ctx.registry.ReadableDefaults

/-- Once registration has ended well, a registered parameter has the text of the tree or else the current default, read as a
value of its type. -/
theorem Ended.get_eq {ctx : Context} (h : ctx.Ended) {ref : Reference} {r : Record}
    (hr : ctx.registry.find? ref.name = some r) (checked : Bool) :
    ctx.get ref checked = (coerce r.type ((ctx.tree.get? ref.name).getD r.default) ref.name).mapError .read := by
  rw [get_of_find? h.closed hr, valueOf_of_accepts (h.readable r (Registry.mem_of_find? hr)), Record.parse_eq,
    Registry.name_of_find? hr]

/-- Registration that ends well leaves no default that cannot be read. -/
theorem Valid.ended {ctx : Context} (h : ctx.Valid) (hend : ctx.endRegistration.2 = none) (ho : ctx.registry.isOpen = true) :
    ctx.endRegistration.1.Ended := by
  have hsound := (h.endRegistration_eq_none_iff ho).mp hend
  rw [endRegistration_fst ho]
  exact ⟨rfl, fun r hr => (hsound r hr).1⟩

/-- Once registration has ended well, nothing but clearing changes the names or makes a default unreadable. -/
theorem Continues.ended {ctx c : Context} (h : ctx.Continues c) (hv : ctx.Valid) (he : ctx.Ended) :
    c.Ended ∧ c.registry.names = ctx.registry.names := by
  induction h with
  | refl => exact ⟨he, rfl⟩
  | @after c hc op hop ih =>
    obtain ⟨⟨hclosed, hread⟩, hnames⟩ := ih
    have hstep := registry_after c hop
    refine ⟨⟨hstep.isOpen_eq_false hclosed, hread.step (hc.valid hv).registry.nodup hclosed hstep⟩, ?_⟩
    rw [hstep.names_eq hclosed, hnames]

end Context

end RunParams

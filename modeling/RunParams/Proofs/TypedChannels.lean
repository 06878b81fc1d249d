import RunParams.Proofs.Channels
import RunParams.Proofs.Redeclaration
import RunParams.Proofs.ValueTexts

/-!
# Typed values through channels

A truth value, a text or a whole number that is not too long is what a parameter of its type has afterwards, be it declared as
the default, made the default later, given by the option of the parameter or assigned in a document.
-/

namespace RunParams

open CommandLine

/-- A text that stands for a value of the type of a parameter is read as that value. -/
theorem Record.parse_of_read {r : Record} {type : ValueType} (ht : r.type = some type) {text : String} {x : Value}
    (h : type.read text = .ok x) : r.parse text "" = .ok x := by
  simp only [Record.parse_eq, ht, coerce, h]

namespace Context

/-! ## The value of a name -/

/-- Every access to a name gives a value: by the name or by any declaration of it, checked or not. Checked accesses count once
the registry is closed. -/
def Yields (ctx : Context) (name : String) (x : Value) : Prop :=
  ∀ ref checked, ref.name = name → (checked = true → ctx.registry.isOpen = false) → ctx.get ref checked = .ok x

theorem yields_iff {ctx : Context} {name : String} {r : Record} (hr : ctx.registry.find? name = some r) {x : Value} :
    ctx.Yields name x ↔ valueOf ctx.tree r = .ok x := by
  constructor
  · intro h
    exact valueOf_of_get hr (h (.named name) false rfl (by simp))
  · rintro h ref checked rfl hc
    rw [get_eq_valueOf hr hc, h]
    rfl

section

variable {ctx : Context} {name text : String} {r : Record} {type : ValueType} {x : Value}

/-- Where a tree has a text for a value, or else the default is one, the parameter has the value, if its default can be read. -/
theorem yields_of_text (hr : ctx.registry.find? name = some r) (ht : r.type = some type) (hx : type.read text = .ok x)
    (htext : (ctx.tree.get? name).getD r.default = text) : ctx.Yields name x ↔ r.Accepts r.default := by
  have hname := Registry.name_of_find? hr
  rw [yields_iff hr, valueOf_eq_ok_iff, hname, htext, Record.parse_of_read ht hx]
  simp

/-! ## Defaults -/

/-- Where the tree has no text, a default that is one for a value gives the value. -/
theorem yields_of_default (hr : ctx.registry.find? name = some r) (ht : r.type = some type) (hx : type.read text = .ok x)
    (hdefault : r.default = text) (hnone : ctx.tree.get? name = none) : ctx.Yields name x := by
  refine (yields_of_text hr ht hx ?_).mpr ⟨x, ?_⟩
  · rw [hnone, Option.getD_none, hdefault]
  · rw [hdefault, Record.parse_of_read ht hx]

/-- A value with a text of the type of a registered parameter can be made its default, and is its value then where the tree has
no text for it. -/
theorem setDefault_of_text {ref : Reference} (hr : ctx.registry.find? ref.name = some r) (ht : r.type = some type)
    (htext : x.toText = .ok text) (hx : type.read text = .ok x) :
    (ctx.setDefault ref x).2 = none ∧ (ctx.tree.get? ref.name = none → (ctx.setDefault ref x).1.Yields ref.name x) := by
  have hnew : ctx.newDefault ref x = .ok text := newDefault_of_parse hr htext (Record.parse_of_read ht hx)
  rw [setDefault, hnew]
  refine ⟨rfl, fun hnone => ?_⟩
  have hfind := Registry.find?_modify hr (f := fun r => { r with default := text }) fun _ => rfl
  exact yields_of_default hfind ht hx rfl hnone

/-- A new parameter that is declared with a value with a text has that value after registration has ended, where the tree has no
text for it; and registration ends as it does without the parameter. -/
theorem yields_declared (h : ctx.Valid) (ho : ctx.registry.isOpen = true) {d : Declaration} {usage : String}
    (hname : Spelling.canonicalize true d.parameterName = .ok d.parameterName)
    (hnew : ctx.registry.find? d.parameterName = none) (hnone : ctx.tree.get? d.parameterName = none)
    (hd : d.value = x) (ht : d.type = some type) (htext : x.toText = .ok text) (hx : type.read text = .ok x) :
    let registered := ctx.register (.declared d) usage
    registered.2 = none ∧ (registered.1.endRegistration.2 = none ↔ ctx.endRegistration.2 = none) ∧
      registered.1.endRegistration.1.Yields d.parameterName x := by
  let r : Record := ⟨d.parameterName, some type, usage, text, false⟩
  have hr : Record.ofDeclaration d usage = .ok r := by
    rw [Record.ofDeclaration_of_toText (hd ▸ htext) usage, ht]
  have hmem := Registry.find?_eq_none_iff.mp hnew
  obtain ⟨c, hregister, hopen, hrecords, htree⟩ := register_new ho hr hname hmem
  obtain ⟨ok, -, hfind, hended⟩ := ended_of_register_new ho hr hname hmem
  refine ⟨ok, ?_, yields_of_default hfind rfl hx rfl (hended.symm ▸ hnone)⟩
  have hvalid : c.Valid := by
    have hafter := h.after (.register (.declared d) usage)
    rw [after, hregister] at hafter
    exact hafter
  have hsound : r.Sound ctx.tree := by
    refine ⟨⟨x, Record.parse_of_read rfl hx⟩, fun t hget => ?_⟩
    rw [hnone] at hget
    cases hget
  rw [hregister, hvalid.endRegistration_eq_none_iff hopen, h.endRegistration_eq_none_iff ho, hrecords, List.forall_mem_append,
    List.forall_mem_singleton, htree]
  exact and_iff_left hsound

/-! ## Texts of the tree -/

/-- Once a text for a value is written, a registered parameter has the value, if its default can be read. -/
theorem yields_written (hr : ctx.registry.find? name = some r) (ht : r.type = some type) (hx : type.read text = .ok x)
    (ok : (ctx.tree.set name text).2 = none) : (ctx.set name text).1.Yields name x ↔ r.Accepts r.default := by
  have hget : (ctx.set name text).1.tree.get? name = some text := (Tree.get?_set ok name).trans (if_pos rfl)
  have hfind : (ctx.set name text).1.registry.find? name = some r := hr
  exact yields_of_text hfind ht hx (by rw [hget, Option.getD_some])

/-- The option of a registered parameter with a text for a value is taken, and so is a line with a literal of the text; after
either the parameter has the value, if its default can be read. -/
theorem yields_channels (hname : Spelling.IsCanonical name) (hr : ctx.registry.find? name = some r) (ht : r.type = some type)
    (hx : type.read text = .ok x) (hsub : ctx.tree.hasSub name = false) (preamble : String) (width : Int) (source : String) :
    let argued := ctx.readCommandLine [Spelling.toFlag name ++ "=" ++ text] preamble width noPositionals ()
    let line := name ++ " = " ++ String.ofList (Quoted.encode text.toList)
    (argued.answer = .ok "" ∧ (argued.context.Yields name x ↔ r.Accepts r.default)) ∧
      (Document.read ctx.tree line source true).2 = none ∧
        ((ctx.after (.readDocument line source true)).Yields name x ↔ r.Accepts r.default) := by
  have ok : (ctx.tree.set name text).2 = none := by
    rw [Option.eq_none_iff_forall_ne_some]
    intro e he
    obtain ⟨hblocked, -⟩ := (Tree.set_eq_some_iff hname.dotFree).mp he
    simp [hsub] at hblocked
  have hwritten := yields_written hr ht hx ok
  have hoption := ctx.readCommandLine_option (optionForm_flagOption hname text) preamble width
  have hread := Document.read_encode hname.spells_self text ctx.tree source
  rw [ok] at hoption hread
  intro argued line
  have hafter : ctx.after (.readDocument line source true) = (ctx.set name text).1 := by
    rw [after, hread]
    rfl
  rw [show argued = _ from hoption, hread, hafter]
  exact ⟨⟨rfl, hwritten⟩, rfl, hwritten⟩

end

/-! ## Four ways to a value -/

/-- A truth value, a text, or a whole number that is not too long has a text, and with it comes to a parameter of its type with a
canonical name in four ways. The parameter has the value once it has been declared with it and registration has ended, which ends
as it does without the parameter; and once the value has been made its default, which succeeds; either where the tree has no text
for it. If no sub-tree has its name, its option with the text is taken, and so is a line with a literal of the text; the
parameter has the value after either, unless its default cannot be read, which does not happen if registration ended well. -/
theorem values_survive {x : Value} {type : ValueType} (hx : x.Textual type) :
    ∃ text, x.toText = .ok text ∧ ∀ ctx : Context, ctx.Reachable →
      (∀ d usage, ctx.registry.phase = .opened → Spelling.canonicalize true d.parameterName = .ok d.parameterName →
          ctx.registry.find? d.parameterName = none → ctx.tree.get? d.parameterName = none →
          d.value = x → d.type = some type →
          let registered := ctx.register (.declared d) usage
          registered.2 = none ∧ (registered.1.endRegistration.2 = none ↔ ctx.endRegistration.2 = none) ∧
            registered.1.endRegistration.1.Yields d.parameterName x) ∧
        ∀ name r, ctx.registry.find? name = some r → r.type = some type →
          (∀ ref, ref.name = name → (ctx.setDefault ref x).2 = none ∧
            (ctx.tree.get? name = none → (ctx.setDefault ref x).1.Yields name x)) ∧
          (ctx.tree.hasSub name = false → ∀ preamble width source,
            let argued := ctx.readCommandLine [Spelling.toFlag name ++ "=" ++ text] preamble width noPositionals ()
            let line := name ++ " = " ++ String.ofList (Quoted.encode text.toList)
            (argued.answer = .ok "" ∧ (argued.context.Yields name x ↔ r.Accepts r.default)) ∧
              (Document.read ctx.tree line source true).2 = none ∧
                ((ctx.after (.readDocument line source true)).Yields name x ↔ r.Accepts r.default)) := by
  obtain ⟨text, htext, hread⟩ := hx.exists_text
  refine ⟨text, htext, fun ctx h => ⟨?_, ?_⟩⟩
  · intro d usage ho hname hnew hnone hd ht
    have hopen : ctx.registry.isOpen = true := by simp [Registry.isOpen, ho]
    exact yields_declared h.valid hopen hname hnew hnone hd ht htext hread
  · intro name r hr ht
    have hmem : name ∈ ctx.registry.names :=
      List.mem_map.mpr ⟨r, Registry.mem_of_find? hr, Registry.name_of_find? hr⟩
    have hname := Spelling.canonicalize_eq_self_iff.mp (h.valid.registry.canonical name hmem)
    refine ⟨?_, fun hsub preamble width source => yields_channels hname hr ht hread hsub preamble width source⟩
    rintro ref rfl
    exact setDefault_of_text hr ht htext hread

/-- A text with quotes, a newline, an equals sign and the start of a comment, in all four ways. -/
theorem values_survive_of_text :
    let x : Value := .text " \"a\"\n=#"
    let title : Declaration := ⟨"Title", none, ⟨some (.text "none"), none⟩, []⟩
    let subtitle : Declaration := ⟨"Subtitle", none, ⟨some x, none⟩, []⟩
    let ctx := (empty.after (.register (.declared title) "The title.")).after .endRegistration
    (empty.register (.declared subtitle) "What it is about.").1.endRegistration.1.Yields "Subtitle" x ∧
      (ctx.setDefault (.named "Title") x).1.Yields "Title" x ∧
      (ctx.readCommandLine ["--title= \"a\"\n=#"] "" 80 noPositionals ()).context.Yields "Title" x ∧
      (ctx.after (.readDocument "Title = \" \\\"a\\\"\\n=#\"" "case.ini" true)).Yields "Title" x := by
  intro x title subtitle ctx
  have hreach : ctx.Reachable := (Reachable.empty.after _).after _
  obtain ⟨text, htext, hall⟩ := values_survive (.text " \"a\"\n=#")
  obtain rfl := Except.ok.inj htext
  obtain ⟨hdeclared, -⟩ := hall empty .empty
  obtain ⟨-, -, hyields⟩ := hdeclared subtitle "What it is about." rfl (by decide +kernel) rfl (by decide +kernel) rfl rfl
  obtain ⟨-, hregistered⟩ := hall ctx hreach
  let r : Record := ⟨"Title", some .text, "The title.", "none", false⟩
  obtain ⟨hdefault, hchannels⟩ := hregistered "Title" r (by decide +kernel) rfl
  obtain ⟨⟨-, hargued⟩, -, hdocumented⟩ := hchannels (by decide +kernel) "" 80 "case.ini"
  have haccepts : r.Accepts r.default := ⟨.text "none", rfl⟩
  exact ⟨hyields, (hdefault (.named "Title") rfl).2 (by decide +kernel), hargued.mpr haccepts, hdocumented.mpr haccepts⟩

end Context

end RunParams

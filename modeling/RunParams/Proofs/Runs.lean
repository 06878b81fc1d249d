import RunParams.CommandLine
import RunParams.Document
import RunParams.Proofs.Registrations
import RunParams.Proofs.TreeMap

/-!
# Runs

A run is a sequence of operations of a program on its context, each of which may fail. What holds of every context that runs
lead to is shown for one operation, and then follows by induction.
-/

namespace RunParams

/-! ## Readers write -/

section

variable {P : Tree → Prop} (hP : ∀ t path value, P t → P (t.set path value).1)
include hP

theorem Document.readLine_preserves (overwrite : Bool) (p : Progress) (line : List Char) (h : P p.tree) :
    P (readLine overwrite p line).1.tree := by
  have hwrite : ∀ path value, P (write overwrite p.tree path value).1 := by
    intro path value
    unfold write
    split
    · exact hP _ _ _ h
    · exact h
  unfold readLine
  split
  · exact h
  · exact h
  · split
    · exact h
    · split
      · exact h
      · exact hwrite _ _

/-- Whatever writes keep, reading a document keeps. -/
theorem Document.readLines_preserves (source : String) (overwrite : Bool) (n : Nat) (p : Progress) (lines : List (List Char))
    (h : P p.tree) : P (readLines source overwrite n p lines).1 := by
  induction lines generalizing n p with
  | nil => exact h
  | cons line lines ih =>
    have hline := readLine_preserves hP overwrite p line h
    rw [readLines]
    split
    · rename_i q cause e
      rw [e] at hline
      exact hline
    · rename_i q e
      rw [e] at hline
      exact ih _ _ hline

namespace CommandLine

theorem writeAll_preserves (t : Tree) (writes : List (String × String)) (h : P t) : P (writeAll t writes).1 := by
  induction writes generalizing t with
  | nil => exact h
  | cons w writes ih =>
    have hset := hP t w.1 w.2 h
    rw [writeAll]
    split
    · rename_i e
      rw [e] at hset
      exact hset
    · rename_i e
      rw [e] at hset
      exact ih _ hset

theorem readOption_preserves {σ : Type} (st : ArgumentState σ) (position : Nat) (argument : String) (h : P st.tree) :
    P (readOption st position argument).1.tree := by
  unfold readOption
  dsimp only
  split
  · exact h
  · split
    · exact h
    · split
      · exact h
      · split
        · split
          · rename_i e
            have hset := congrArg (P ∘ Prod.fst) e
            exact hset.mp (hP _ _ _ h)
          · rename_i e
            have hset := congrArg (P ∘ Prod.fst) e
            exact hset.mp (hP _ _ _ h)
        · exact h

theorem readPositional_preserves {σ : Type} (handler : PositionalHandler σ) (st : ArgumentState σ) (call : PositionalCall)
    (argument : String) (h : P st.tree) : P (readPositional handler st call argument).1.tree := by
  have hall := writeAll_preserves hP st.tree (handler st.handler call).writes h
  unfold readPositional
  dsimp only
  split
  · rename_i e
    rw [e] at hall
    exact hall
  · rename_i e
    rw [e] at hall
    split <;> exact hall

/-- Whatever writes keep, reading a command line keeps. -/
theorem readFrom_preserves {σ : Type} (handler : PositionalHandler σ) (argv : List String) (index taken handled : Nat)
    (st : ArgumentState σ) (rest : List String) (h : P st.tree) :
    P (readFrom handler argv index taken handled st rest).1.tree := by
  induction rest generalizing index taken handled st with
  | nil => exact h
  | cons argument rest ih =>
    cases taken with
    | succ more => exact ih _ _ _ _ h
    | zero =>
      rw [readFrom]
      split
      · have hopt := readOption_preserves hP st (index + 1) argument h
        split
        · rename_i e
          rw [e] at hopt
          exact ih _ _ _ _ hopt
        · exact hopt
      · have hpos := readPositional_preserves hP handler st ⟨st.seen, argv, index, handled⟩ argument h
        split
        · rename_i e
          rw [e] at hpos
          exact ih _ _ _ _ hpos
        · rename_i e
          rw [e] at hpos
          exact hpos

end CommandLine

end

/-- Reading a command line changes nothing of a context but its tree, to what is read into it unless help is asked for. -/
theorem Context.readCommandLine_context {σ : Type} (ctx : Context) (argv : List String) (preamble : String) (width : Int)
    (handler : PositionalHandler σ) (state : σ) :
    (ctx.readCommandLine argv preamble width handler state).context = ctx ∨
      (ctx.readCommandLine argv preamble width handler state).context =
        { ctx with tree := (CommandLine.read handler state ctx.tree argv).1.tree } := by
  unfold readCommandLine
  split
  · exact .inl rfl
  · right
    dsimp only
    split <;> rfl

/-! ## Operations -/

/-- What a program may do to its context. A positional handler may be any function. -/
inductive Operation : Type 1
  | register (ref : Reference) (usage : String)
  | hide (ref : Reference)
  | endRegistration
  | reset
  | setDefault (ref : Reference) (value : Value)
  | get (ref : Reference) (checked : Bool)
  | isSet (ref : Reference) (checked : Bool)
  | write (act : Tree → Tree × Option TreeError) (h : Tree.IsWrite act)
  | readCommandLine {σ : Type} (argv : List String) (preamble : String) (width : Int) (handler : PositionalHandler σ)
      (state : σ)
  | readDocument (text source : String) (overwrite : Bool)

namespace Context

/-- The context after an operation, whether that succeeds or fails. -/
def after (ctx : Context) : Operation → Context
  | .register ref usage => (ctx.register ref usage).1
  | .hide ref => (ctx.hide ref).1
  | .endRegistration => ctx.endRegistration.1
  | .reset => empty
  | .setDefault ref value => (ctx.setDefault ref value).1
  | .get _ _ => ctx
  | .isSet _ _ => ctx
  | .write act _ => { ctx with tree := (act ctx.tree).1 }
  | .readCommandLine argv preamble width handler state => (ctx.readCommandLine argv preamble width handler state).context
  | .readDocument text source overwrite => { ctx with tree := (Document.read ctx.tree text source overwrite).1 }

/-- The contexts that operations make of the empty one. -/
inductive Reachable : Context → Prop
  | empty : Reachable Context.empty
  | after {ctx : Context} (h : Reachable ctx) (op : Operation) : Reachable (ctx.after op)

/-- The contexts that operations other than clearing make of a context. -/
inductive Continues (ctx : Context) : Context → Prop
  | refl : Continues ctx ctx
  | after {c : Context} (h : Continues ctx c) {op : Operation} (hop : op ≠ .reset) : Continues ctx (c.after op)

/-! ### Accesses -/

/-- The record of an access to a registered parameter is the registered one. Checked accesses count once the registry is closed. -/
theorem info_of_find? {ctx : Context} {ref : Reference} {r : Record} (hr : ctx.registry.find? ref.name = some r) {checked : Bool}
    (hc : checked = true → ctx.registry.isOpen = false) (verb : String) : ctx.info ref checked verb = .ok r := by
  cases checked with
  | true => simp [info, Registry.requireClosed, Registry.lookup, hc rfl, hr, Except.mapError, bind, Except.bind]
  | false => simp [info, hr]

theorem get_of_info {ctx : Context} {ref : Reference} {r : Record} {checked : Bool}
    (h : ctx.info ref checked "retrieved" = .ok r) : ctx.get ref checked = (valueOf ctx.tree r).mapError .read := by
  rw [get, h]
  rfl

theorem isSet_of_info {ctx : Context} {ref : Reference} {r : Record} {checked : Bool}
    (h : ctx.info ref checked "checked" = .ok r) : ctx.isSet ref checked = .ok (ctx.tree.hasKey r.name) := by
  rw [isSet, h]
  rfl

/-- An access to a registered parameter gives the value of its record. -/
theorem get_eq_valueOf {ctx : Context} {ref : Reference} {r : Record} (hr : ctx.registry.find? ref.name = some r)
    {checked : Bool} (hc : checked = true → ctx.registry.isOpen = false) :
    ctx.get ref checked = (valueOf ctx.tree r).mapError .read :=
  get_of_info (info_of_find? hr hc "retrieved")

/-- A registered parameter is set where the tree has its name as a key. -/
theorem isSet_eq_hasKey {ctx : Context} {ref : Reference} {r : Record} (hr : ctx.registry.find? ref.name = some r)
    {checked : Bool} (hc : checked = true → ctx.registry.isOpen = false) :
    ctx.isSet ref checked = .ok (ctx.tree.hasKey ref.name) := by
  rw [isSet_of_info (info_of_find? hr hc "checked"), Registry.name_of_find? hr]

/-- The value of a registered parameter of a closed registry. -/
theorem get_of_find? {ctx : Context} (hc : ctx.registry.isOpen = false) {ref : Reference} {r : Record}
    (hr : ctx.registry.find? ref.name = some r) (checked : Bool) :
    ctx.get ref checked = (valueOf ctx.tree r).mapError .read :=
  get_eq_valueOf hr fun _ => hc

/-- Whether a registered parameter of a closed registry is set. -/
theorem isSet_of_find? {ctx : Context} (hc : ctx.registry.isOpen = false) {ref : Reference} {r : Record}
    (hr : ctx.registry.find? ref.name = some r) (checked : Bool) :
    ctx.isSet ref checked = .ok (ctx.tree.hasKey ref.name) :=
  isSet_eq_hasKey hr fun _ => hc

/-! ### The end of registration -/

/-- Reading parameters back leaves the registry, and ends with the error of the first of them that has no value. -/
theorem finish_readBack (tree : Tree) (reg : Registry String) (names : List String) :
    (Registry.finish (readBack tree) reg names).registry = reg ∧
      (Registry.finish (readBack tree) reg names).error =
        names.findSome? fun n => errorOf? ((Context.mk reg tree).get (.named n) true) := by
  induction names with
  | nil => simp [Registry.finish]
  | cons n names ih =>
    cases hget : (Context.mk reg tree).get (.named n) true with
    | error e => simp [Registry.finish, readBack, Registry.perform, hget, errorOf?]
    | ok v =>
      have hstep : Registry.finish (readBack tree) reg (n :: names) =
          { Registry.finish (readBack tree) reg names with ran := n :: (Registry.finish (readBack tree) reg names).ran } := by
        simp [Registry.finish, readBack, Registry.perform, hget]
      rw [hstep]
      refine ⟨ih.1, ih.2.trans ?_⟩
      simp [hget, errorOf?]

/-- Ending registration closes an open registry, and refuses a closed one. -/
theorem endRegistration_registry (ctx : Context) :
    ctx.registry.isOpen = true ∧ ctx.endRegistration.1 = { ctx with registry := ctx.registry.afterClose } ∨
      ctx.registry.isOpen = false ∧ ctx.endRegistration.1 = ctx := by
  by_cases ho : ctx.registry.isOpen = true
  · left
    refine ⟨ho, ?_⟩
    rw [endRegistration, Registry.close_eq, if_pos ho]
    exact congrArg (Context.mk · ctx.tree) (finish_readBack ctx.tree ctx.registry.afterClose ctx.registry.pending).1
  · right
    refine ⟨by simpa using ho, ?_⟩
    rw [endRegistration, Registry.close_eq, if_neg ho]

/-! ### What one operation does -/

/-- What an operation does to a registry: nothing, or that which it is for. -/
inductive Effect (reg : Registry String) : Operation → Registry String → Prop
  | nothing {op : Operation} (h : op ≠ .reset) : Effect reg op reg
  | register {ref : Reference} {usage : String} {r : Record} (hr : recordOf ref usage = .ok r) (hopen : reg.isOpen = true)
      (hname : Spelling.canonicalize true r.name = .ok r.name) (hnew : r.name ∉ reg.names) :
      Effect reg (.register ref usage) { reg with records := reg.records ++ [r], pending := reg.pending ++ [r.name] }
  | hide {ref : Reference} (hopen : reg.isOpen = true) :
      Effect reg (.hide ref) (reg.modify ref.name fun r => { r with hidden := true })
  | endRegistration (hopen : reg.isOpen = true) : Effect reg .endRegistration reg.afterClose
  | reset : Effect reg .reset .empty
  | setDefault {ref : Reference} {value v : Value} {text : String} {r : Record} (hr : reg.find? ref.name = some r)
      (ht : value.toText = .ok text) (hv : r.parse text "" = .ok v) :
      Effect reg (.setDefault ref value) (reg.modify ref.name fun r => { r with default := text })

/-- A text to keep as a new default is that of the value, and can be read. -/
theorem newDefault_eq_ok {ctx : Context} {ref : Reference} {value : Value} {text : String}
    (h : ctx.newDefault ref value = .ok text) :
    ∃ r v, ctx.registry.find? ref.name = some r ∧ value.toText = .ok text ∧ r.parse text "" = .ok v := by
  obtain ⟨r, hr, h⟩ := bind_eq_ok.mp h
  obtain ⟨t, ht, h⟩ := bind_eq_ok.mp h
  obtain ⟨v, hv, h⟩ := bind_eq_ok.mp h
  obtain rfl : t = text := by simpa [pure, Except.pure] using h
  refine ⟨r, v, ?_, mapError_eq_ok.mp ht, mapError_eq_ok.mp hv⟩
  rw [mapError_eq_ok, Registry.lookup] at hr
  split at hr
  · rename_i h'
    cases hr
    exact h'
  · cases hr

/-- The text of a value is kept as a new default if it can be read. -/
theorem newDefault_of_parse {ctx : Context} {ref : Reference} {value v : Value} {text : String} {r : Record}
    (hr : ctx.registry.find? ref.name = some r) (ht : value.toText = .ok text) (hv : r.parse text "" = .ok v) :
    ctx.newDefault ref value = .ok text := by
  simp [newDefault, Registry.lookup, hr, ht, hv, Except.mapError, bind, Except.bind, pure, Except.pure]

/-- Registering in a context leaves its registry, or registers the record of the declaration. -/
theorem registry_register (ctx : Context) (ref : Reference) (usage : String) :
    (ctx.register ref usage).1.registry = ctx.registry ∨
      ∃ r, recordOf ref usage = .ok r ∧
        (ctx.register ref usage).1.registry = (ctx.registry.register r (some r.name)).1 := by
  unfold register
  split
  · exact .inl rfl
  · rename_i r hr
    refine .inr ⟨r, hr, ?_⟩
    split
    · rename_i e
      rw [e]
    · rename_i e
      rw [e]

/-- In an open context a declaration with a canonical name that is not registered adds its record behind the others. -/
theorem register_new {ctx : Context} (ho : ctx.registry.isOpen = true) {d : Declaration} {usage : String} {r : Record}
    (hr : Record.ofDeclaration d usage = .ok r) (hname : Spelling.canonicalize true r.name = .ok r.name)
    (hnew : r.name ∉ ctx.registry.names) :
    ∃ c, ctx.register (.declared d) usage = (c, none) ∧ c.registry.isOpen = true ∧
      c.registry.records = ctx.registry.records ++ [r] ∧ c.tree = ctx.tree := by
  have hrecord : recordOf (.declared d) usage = .ok r := mapError_eq_ok.mpr hr
  have hadmits := Registry.admits_eq_true_iff.mpr ⟨ho, hname, hnew⟩
  rw [register, hrecord]
  dsimp only
  rw [Registry.register, hadmits]
  exact ⟨_, rfl, ho, rfl, rfl⟩

theorem effect_after (ctx : Context) (op : Operation) : Effect ctx.registry op (ctx.after op).registry := by
  cases op with
  | register ref usage =>
    rw [after]
    obtain h | ⟨r, hr, h⟩ := ctx.registry_register ref usage
    · rw [h]
      exact .nothing nofun
    · rw [h]
      obtain h | ⟨ho, hname, hnew, h⟩ := ctx.registry.register_fst r (some r.name)
      · rw [h]
        exact .nothing nofun
      · rw [h]
        exact .register hr ho hname hnew
  | hide ref =>
    have hhide : (ctx.after (.hide ref)).registry = (ctx.registry.hide ref.name).1 := rfl
    rw [hhide]
    obtain h | ⟨ho, h⟩ := ctx.registry.hide_fst ref.name
    · rw [h]
      exact .nothing nofun
    · rw [h]
      exact .hide ho
  | endRegistration =>
    rw [after]
    obtain ⟨ho, hctx⟩ | ⟨-, hctx⟩ := ctx.endRegistration_registry
    · rw [hctx]
      exact .endRegistration ho
    · rw [hctx]
      exact .nothing nofun
  | reset => exact .reset
  | setDefault ref value =>
    simp only [after, setDefault]
    split
    · exact .nothing nofun
    · rename_i text h
      obtain ⟨r, v, hr, ht, hv⟩ := newDefault_eq_ok h
      exact .setDefault hr ht hv
  | get ref checked => exact .nothing nofun
  | isSet ref checked => exact .nothing nofun
  | write act h => exact .nothing nofun
  | readCommandLine argv preamble width handler state =>
    rw [after]
    obtain h | h := ctx.readCommandLine_context argv preamble width handler state
    · rw [h]
      exact .nothing nofun
    · rw [h]
      exact .nothing nofun
  | readDocument text source overwrite => exact .nothing nofun

/-- Every operation but clearing does to the registry one of the things that may happen to it. -/
theorem registry_after (ctx : Context) {op : Operation} (hop : op ≠ .reset) :
    Registry.Step ctx.registry (ctx.after op).registry := by
  have h := ctx.effect_after op
  generalize (ctx.after op).registry = reg at h
  cases h with
  | nothing h => exact .same
  | register hr ho hname hnew => exact .add _ ho hname hnew
  | hide ho => exact .hide _ ho
  | endRegistration ho => exact .close ho
  | reset => exact absurd rfl hop
  | setDefault hr ht hv => exact .setDefault hr hv

/-- Every operation does to the tree nothing but write, unless it clears the context. -/
theorem tree_after {P : Tree → Prop} (hP : ∀ act t, Tree.IsWrite act → P t → P (act t).1) (he : P .empty) {ctx : Context}
    (h : P ctx.tree) (op : Operation) : P (ctx.after op).tree := by
  have hset : ∀ t path value, P t → P (t.set path value).1 := fun t path value ht => hP _ t (.set path value) ht
  cases op with
  | register ref usage =>
    simp only [after, register]
    split
    · exact h
    · split <;> exact h
  | hide ref => exact h
  | endRegistration =>
    simp only [after]
    obtain ⟨-, hctx⟩ | ⟨-, hctx⟩ := ctx.endRegistration_registry
    · rw [hctx]
      exact h
    · rw [hctx]
      exact h
  | reset => exact he
  | setDefault ref value =>
    simp only [after, setDefault]
    split <;> exact h
  | get ref checked => exact h
  | isSet ref checked => exact h
  | write act ha => exact hP act ctx.tree ha h
  | readCommandLine argv preamble width handler state =>
    simp only [after]
    obtain e | e := ctx.readCommandLine_context argv preamble width handler state
    · rw [e]
      exact h
    · rw [e]
      exact CommandLine.readFrom_preserves hset handler argv 0 0 0 ⟨ctx.tree, [], state⟩ argv h
  | readDocument text source overwrite => exact Document.readLines_preserves hset source overwrite 1 ⟨ctx.tree, []⟩ _ h

/-! ### What holds in every run -/

/-- What holds of every context: its tree is reachable, and its registry valid. -/
structure Valid (ctx : Context) : Prop where
  tree : ctx.tree.Reachable
  registry : ctx.registry.Valid

theorem Valid.after {ctx : Context} (h : ctx.Valid) (op : Operation) : (ctx.after op).Valid := by
  refine ⟨tree_after (fun act t ha ht => .write ht ha) .empty h.tree op, ?_⟩
  by_cases hop : op = .reset
  · rw [hop]
    exact Registry.valid_empty
  · exact h.registry.step (registry_after ctx hop)

/-- Every reachable context is valid. -/
theorem Reachable.valid {ctx : Context} (h : ctx.Reachable) : ctx.Valid := by
  induction h with
  | empty => exact ⟨.empty, Registry.valid_empty⟩
  | after _ op ih => exact ih.after op

theorem Continues.valid {ctx c : Context} (h : ctx.Continues c) (hv : ctx.Valid) : c.Valid := by
  induction h with
  | refl => exact hv
  | after _ _ ih => exact ih.after _

end Context

end RunParams

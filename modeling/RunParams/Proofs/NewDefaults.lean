import RunParams.Proofs.Partition
import RunParams.Proofs.Redeclaration

/-!
# New defaults

A value becomes the default of a registered parameter exactly when its text can be read as a value of the type. Then one default
has another text, and all else is as it was: what is set, how the keys fall apart, and the values of all other parameters. The
parameter itself has the new default as its value unless the tree has a text for it, which counts as before.
-/

namespace RunParams

namespace Registry

section

variable {φ : Type} {a b : Registry φ}

theorem contains_congr (hnames : a.names = b.names) : a.contains = b.contains := by
  funext n
  rw [Bool.eq_iff_iff, contains_iff, contains_iff, hnames]

theorem requireClosed_congr (hphase : a.phase = b.phase) (text : String) : a.requireClosed text = b.requireClosed text := by
  rw [requireClosed, requireClosed, isOpen, isOpen, hphase]

/-- A refused look-up suggests names that are registered. -/
theorem lookup_congr (hnames : a.names = b.names) {n : String} (hfind : a.find? n = b.find? n) (action : String) :
    a.lookup action n = b.lookup action n := by
  rw [lookup, lookup, hfind, hnames]

end

end Registry

namespace Context

/-! ## What depends on the names -/

section

variable {a b : Context} (hphase : a.registry.phase = b.registry.phase) (hnames : a.registry.names = b.registry.names)

/-- How the keys fall apart depends on the names and the tree. -/
theorem partition_congr (hnames : a.registry.names = b.registry.names) (htree : a.tree = b.tree) : a.partition = b.partition := by
  unfold partition Registry.sortedNames
  rw [Registry.contains_congr hnames, hnames, htree]

include hphase hnames

/-- The record of an access depends on the phase, the names and the record of the name. -/
theorem info_congr {ref : Reference} (hfind : a.registry.find? ref.name = b.registry.find? ref.name) (checked : Bool)
    (verb : String) : a.info ref checked verb = b.info ref checked verb := by
  have hlookup := Registry.lookup_congr hnames hfind "Accessing"
  unfold info
  rw [Registry.requireClosed_congr hphase, hlookup, hfind]
  cases b.registry.find? ref.name with
  | some r => rfl
  | none =>
    cases ref with
    | named name =>
      have hname : a.registry.lookup "Accessing" name = b.registry.lookup "Accessing" name := hlookup
      simp only [hname]
    | declared d => rfl

/-- Whether a parameter is set depends on the phase, the names and the tree. -/
theorem isSet_congr (htree : a.tree = b.tree) (ref : Reference) (checked : Bool) : a.isSet ref checked = b.isSet ref checked := by
  cases hr : a.registry.find? ref.name with
  | none =>
    have hs : b.registry.find? ref.name = none := by
      rw [Registry.find?_eq_none_iff, ← hnames]
      exact Registry.find?_eq_none_iff.mp hr
    rw [isSet, isSet, info_congr hphase hnames (hr.trans hs.symm), htree]
  | some r =>
    have hmem : ref.name ∈ a.registry.names := Registry.exists_find?_iff.mp ⟨r, hr⟩
    obtain ⟨s, hs⟩ := Registry.exists_find?_iff.mpr (hnames ▸ hmem)
    have hopen : a.registry.isOpen = b.registry.isOpen := by rw [Registry.isOpen, Registry.isOpen, hphase]
    by_cases hc : checked = true → a.registry.isOpen = false
    · rw [isSet_eq_hasKey hr hc, isSet_eq_hasKey hs (hopen ▸ hc), htree]
    · -- A checked access to an open registry is refused whatever is registered.
      rw [Classical.not_imp, Bool.not_eq_false] at hc
      obtain ⟨rfl, ho⟩ := hc
      simp [isSet, info, Registry.requireClosed, ← hopen, ho, Except.mapError, bind, Except.bind]

end

/-! ## One default -/

/-- A context with another text as the default of a name. -/
def withDefault (ctx : Context) (name text : String) : Context :=
  { ctx with registry := ctx.registry.modify name fun r => { r with default := text } }

/-- A value with a text that can be read is made the default, and every other value is refused. -/
theorem setDefault_eq {ctx : Context} {ref : Reference} {r : Record} (hr : ctx.registry.find? ref.name = some r) {x : Value}
    {text : String} (htext : x.toText = .ok text) :
    (r.Accepts text → ctx.setDefault ref x = (ctx.withDefault ref.name text, none)) ∧
      ((ctx.setDefault ref x).2 = none → r.Accepts text) := by
  constructor
  · rintro ⟨v, hv⟩
    rw [setDefault, newDefault_of_parse hr htext hv]
    rfl
  · intro ok
    unfold setDefault at ok
    split at ok
    · cases ok
    · rename_i hnew
      obtain ⟨s, v, hs, ht, hv⟩ := newDefault_eq_ok hnew
      obtain rfl := Option.some.inj (hs.symm.trans hr)
      obtain rfl := Except.ok.inj (ht.symm.trans htext)
      exact ⟨v, hv⟩

theorem names_withDefault (ctx : Context) (name text : String) :
    (ctx.withDefault name text).registry.names = ctx.registry.names :=
  Registry.names_modify _ _ fun _ => rfl

theorem find?_withDefault {ctx : Context} {r : Record} (hr : ctx.registry.find? r.name = some r) (text : String) :
    (ctx.withDefault r.name text).registry.find? r.name = some { r with default := text } :=
  Registry.find?_modify hr fun _ => rfl

theorem find?_withDefault_of_ne {ctx : Context} {name n : String} (hn : n ≠ name) (text : String) :
    (ctx.withDefault name text).registry.find? n = ctx.registry.find? n :=
  Registry.find?_modify_of_ne hn fun _ => rfl

/-- A parameter whose new default can be read has the text of the tree as its value, or else the new default. -/
theorem get_withDefault {ctx : Context} {r : Record} (hr : ctx.registry.find? r.name = some r) {text : String}
    (htext : r.Accepts text) {ref : Reference} (href : ref.name = r.name) {checked : Bool}
    (hc : checked = true → ctx.registry.isOpen = false) :
    (ctx.withDefault r.name text).get ref checked =
      (r.parse ((ctx.tree.get? r.name).getD text) "").mapError .read := by
  let s : Record := { r with default := text }
  have hs : (ctx.withDefault r.name text).registry.find? ref.name = some s := by
    rw [href]
    exact find?_withDefault hr text
  have hvalue : valueOf ctx.tree s = s.parse ((ctx.tree.get? s.name).getD s.default) "" := valueOf_of_accepts htext
  exact (get_eq_valueOf hs hc).trans (congrArg (Except.mapError Failure.read) hvalue)

/-- What becomes of a context when the default of a record is replaced by a text. -/
structure DefaultReplaced (before after : Context) (r : Record) (text : String) : Prop where
  tree : after.tree = before.tree
  phase : after.registry.phase = before.registry.phase
  pending : after.registry.pending = before.registry.pending
  names : after.registry.names = before.registry.names
  /-- The record keeps all but its default. -/
  record : after.registry.find? r.name = some { r with default := text }
  others : ∀ n, n ≠ r.name → after.registry.find? n = before.registry.find? n
  isSet : ∀ ref checked, after.isSet ref checked = before.isSet ref checked
  partition : after.partition = before.partition
  get_others : ∀ ref checked, ref.name ≠ r.name → after.get ref checked = before.get ref checked
  /-- Where the tree has no text for the parameter, its value is what the new default is read as. -/
  get_default : before.tree.get? r.name = none → ∀ ref checked, ref.name = r.name →
    (checked = true → before.registry.isOpen = false) → after.get ref checked = (r.parse text "").mapError .read
  /-- Where the tree has a text for it, its value is what that is read as. -/
  get_text : ∀ t, before.tree.get? r.name = some t → ∀ ref checked, ref.name = r.name →
    (checked = true → before.registry.isOpen = false) → after.get ref checked = (r.parse t "").mapError .read
  /-- That is the value that it had before, if it had one. -/
  get_kept : ∀ t, before.tree.get? r.name = some t → ∀ ref checked v, ref.name = r.name →
    (checked = true → before.registry.isOpen = false) → before.get ref checked = .ok v → after.get ref checked = .ok v

/-- Another default that can be read replaces the default of a registered parameter and changes nothing else. -/
theorem defaultReplaced {ctx : Context} {r : Record} (hr : ctx.registry.find? r.name = some r) {text : String}
    (htext : r.Accepts text) : ctx.DefaultReplaced (ctx.withDefault r.name text) r text where
  tree := rfl
  phase := rfl
  pending := rfl
  names := ctx.names_withDefault r.name text
  record := find?_withDefault hr text
  others n hn := find?_withDefault_of_ne hn text
  isSet := isSet_congr rfl (ctx.names_withDefault r.name text) rfl
  partition := partition_congr (ctx.names_withDefault r.name text) rfl
  get_others ref checked hne := by
    have hnames := ctx.names_withDefault r.name text
    have hinfo := @info_congr (ctx.withDefault r.name text) ctx rfl hnames ref (find?_withDefault_of_ne hne text) checked "retrieved"
    rw [get, get, hinfo]
    rfl
  get_default hnone ref checked href hc := by
    rw [get_withDefault hr htext href hc, hnone, Option.getD_none]
  get_text t ht ref checked href hc := by
    rw [get_withDefault hr htext href hc, ht, Option.getD_some]
  get_kept t ht ref checked v href hc hv := by
    have hvalue := valueOf_of_get (href ▸ hr) hv
    obtain ⟨-, hparse⟩ := valueOf_eq_ok_iff.mp hvalue
    rw [ht, Option.getD_some] at hparse
    rw [get_withDefault hr htext href hc, ht, Option.getD_some, hparse]
    rfl

/-- A value with a text becomes the default of a registered parameter exactly when the text can be read as a value of its type.
Then the tree, what is set, how the keys fall apart, the phase, the pending finalizers and all other records are as they were, and
so is the value of every other name. The parameter has the value of the new default where the tree has no text for it. Where it
has one, its value is that of this text, or fails as this text does; it is the value from before, if there was one. -/
theorem setDefault_replaces_one {ctx : Context} {ref : Reference} {r : Record} (hr : ctx.registry.find? ref.name = some r)
    {x : Value} {text : String} (htext : x.toText = .ok text) :
    ((ctx.setDefault ref x).2 = none ↔ r.Accepts text) ∧
      ((ctx.setDefault ref x).2 = none → ctx.DefaultReplaced (ctx.setDefault ref x).1 r text) := by
  obtain ⟨hset, haccepts⟩ := setDefault_eq hr htext
  have hname : r.name = ref.name := Registry.name_of_find? hr
  refine ⟨⟨haccepts, fun h => congrArg Prod.snd (hset h)⟩, fun ok => ?_⟩
  rw [hset (haccepts ok), ← hname]
  exact defaultReplaced (hname ▸ hr) (haccepts ok)

/-- A default that cannot be read keeps registration from ending well, and the text in the tree from being the value. Another
default repairs this, but not one that cannot be read either. -/
theorem setDefault_replaces_one_of_malformed :
    let count : Declaration := ⟨"Count", none, ⟨some (.text "many"), some (some .int)⟩, []⟩
    let limit : Declaration := ⟨"Limit", none, ⟨some (.int 9), none⟩, []⟩
    let registered := (empty.after (.register (.declared count) "How many.")).after (.register (.declared limit) "At most.")
    let written := registered.after (.write (·.set "Count" "7") (.set "Count" "7"))
    let ctx := written.after .endRegistration
    let changed := ctx.setDefault (.named "Count") (.int 5)
    written.endRegistration.2 ≠ none ∧ ctx.get (.named "Count") true = .error (.read (.value ⟨"Count", "int", "many"⟩)) ∧
      (ctx.setDefault (.named "Count") (.text "few")).2 ≠ none ∧ changed.2 = none ∧
      changed.1.get (.named "Count") true = .ok (.int 7) ∧
      changed.1.get (.named "Limit") true = ctx.get (.named "Limit") true := by
  intro count limit registered written ctx changed
  let r : Record := ⟨"Count", some .int, "How many.", "many", false⟩
  have hr : ctx.registry.find? (Reference.named "Count").name = some r := by decide +kernel
  have hfew : Value.toText (.text "few") = .ok "few" := by decide +kernel
  have hfive : Value.toText (.int 5) = .ok "5" := by decide +kernel
  obtain ⟨hrefused, -⟩ := setDefault_replaces_one hr hfew
  obtain ⟨haccepted, hreplaced⟩ := setDefault_replaces_one hr hfive
  have ok : changed.2 = none := haccepted.mpr ⟨.int 5, rfl⟩
  have hchanged := hreplaced ok
  refine ⟨by decide +kernel, ?_, ?_, ok, ?_, hchanged.get_others (.named "Limit") true (by decide)⟩
  · exact errorOf?_eq_some_iff.mp (by decide +kernel)
  · have hnot : r.Refuses "few" (.value ⟨"Count", "int", "few"⟩) := .unfit rfl rfl
    exact mt hrefused.mp hnot.not_accepts
  · exact hchanged.get_text "7" (by decide +kernel) (.named "Count") true rfl fun _ => by decide +kernel

end Context

end RunParams

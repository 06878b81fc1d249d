import RunParams.Proofs.TypedChannels

/-!
# Shown defaults

The usage message shows the default of a boolean parameter as true unless its text is `0`, while the text is read as true only if
it is `1`. The two agree on the texts of truth values. But any value with a text can be given as the default of a boolean
parameter, and the message is wrong of all others: it shows a default as true that is read as false.
-/

namespace RunParams

/-- How a truth value is shown. -/
def truthText (b : Bool) : String :=
  if b then "true" else "false"

namespace Record

/-! ## Two readings of one text -/

section

variable {r : Record} (hk : r.kind = .boolean)
include hk

theorem type_of_boolean : r.type = some .bool := by
  rw [kind] at hk
  cases ht : r.type with
  | none =>
    rw [ht] at hk
    cases hk
  | some t =>
    rw [ht] at hk
    cases t with
    | basic b => cases b <;> simp_all [ValueType.kind, BasicType.kind]
    | declared c =>
      obtain ⟨name, maker⟩ := c
      cases maker <;> cases hk

theorem defaultValue_of_boolean : r.defaultValue = .ok (.bool (r.default == "1")) :=
  parse_of_read (type_of_boolean hk) rfl

theorem shownDefault_of_boolean : r.shownDefault = truthText (r.default != "0") := by
  rw [shownDefault, hk, truthText]
  by_cases h : r.default = "0" <;> simp [h]

/-- The default that is shown is the one that is read where its text is that of a truth value. -/
theorem shownDefault_eq_iff : r.shownDefault = truthText (r.default == "1") ↔ r.default = "0" ∨ r.default = "1" := by
  rw [shownDefault_of_boolean hk]
  by_cases hzero : r.default = "0"
  · simp [hzero]
  · by_cases hone : r.default = "1"
    · simp [hone]
    · simp [hzero, hone, truthText]

end

end Record

namespace Context

/-! ## Where defaults come from -/

/-- An operation gives a name a default: it registers the name, or sets its default. -/
inductive Gives (ctx : Context) : Operation → String → Value → Prop
  | registration {d : Declaration} {usage : String} (hnew : d.parameterName ∉ ctx.registry.names)
      (hadded : d.parameterName ∈ (ctx.after (.register (.declared d) usage)).registry.names) :
      Gives ctx (.register (.declared d) usage) d.parameterName d.value
  | setting {ref : Reference} {value : Value} (hok : (ctx.setDefault ref value).2 = none) :
      Gives ctx (.setDefault ref value) ref.name value

/-- Of all values that a run has given a name as its default since it cleared the context, one is the last. -/
inductive LastGiven (name : String) : Context → Value → Prop
  | here {ctx : Context} {op : Operation} {v : Value} (h : ctx.Reachable) (hgives : Gives ctx op name v) :
    LastGiven name (ctx.after op) v
  | earlier {ctx : Context} {op : Operation} {v : Value} (h : LastGiven name ctx v) (hop : op ≠ .reset)
      (hkeeps : ∀ w, ¬ Gives ctx op name w) : LastGiven name (ctx.after op) v

variable {ctx : Context}

/-- After an operation has given a name a value as its default, the text of the default is that of the value. -/
theorem Gives.toText_eq {op : Operation} {r : Record} {v : Value} (h : Gives ctx op r.name v)
    (hr : r ∈ (ctx.after op).registry.records) : v.toText = .ok r.default := by
  generalize hname : r.name = name at h
  cases h with
  | @registration d usage hnew hadded =>
    have heffect := ctx.effect_after (.register (.declared d) usage)
    generalize (ctx.after (.register (.declared d) usage)).registry = reg at heffect hadded hr
    cases heffect with
    | nothing => exact absurd hadded hnew
    | register hrecord _ _ _ =>
      obtain ⟨text, htext, hs⟩ := bind_eq_ok.mp (mapError_eq_ok.mp hrecord)
      obtain rfl := Except.ok.inj hs
      rcases List.mem_append.mp hr with hr | hr
      · exact absurd (List.mem_map.mpr ⟨r, hr, hname⟩) hnew
      · rw [List.mem_singleton.mp hr]
        exact htext
  | @setting ref value hok =>
    simp only [after, setDefault] at hr hok
    split at hr
    · rename_i herror
      rw [herror] at hok
      cases hok
    · rename_i text hnewDefault
      obtain ⟨-, -, -, htext, -⟩ := newDefault_eq_ok hnewDefault
      obtain ⟨s, -, rfl⟩ := List.mem_map.mp hr
      by_cases hs : s.name = ref.name
      · rw [if_pos hs]
        exact htext
      · rw [if_neg hs] at hname
        exact absurd hname hs

/-- A default that an operation does not give was there before. -/
theorem exists_default_of_not_gives {op : Operation} {r : Record} (hr : r ∈ (ctx.after op).registry.records)
    (h : ∀ v, ¬ Gives ctx op r.name v) :
    op ≠ .reset ∧ ∃ s ∈ ctx.registry.records, s.name = r.name ∧ s.default = r.default := by
  have heffect := ctx.effect_after op
  generalize hreg : (ctx.after op).registry = reg at heffect hr
  cases heffect with
  | nothing hop => exact ⟨hop, r, hr, rfl, rfl⟩
  | @register ref usage s hrecord _ _ hnew =>
    refine ⟨by simp, ?_⟩
    rcases List.mem_append.mp hr with hr | hr
    · exact ⟨r, hr, rfl, rfl⟩
    · obtain rfl := List.mem_singleton.mp hr
      cases ref with
      | named name => cases hrecord
      | declared d =>
        obtain ⟨text, -, hs⟩ := bind_eq_ok.mp (mapError_eq_ok.mp hrecord)
        obtain rfl := Except.ok.inj hs
        refine absurd (Gives.registration hnew ?_) (h d.value)
        rw [hreg]
        simp [Registry.names]
  | hide =>
    refine ⟨by simp, ?_⟩
    obtain ⟨s, hs, rfl⟩ := List.mem_map.mp hr
    refine ⟨s, hs, ?_⟩
    split <;> exact ⟨rfl, rfl⟩
  | endRegistration => exact ⟨by simp, r, hr, rfl, rfl⟩
  | reset => cases hr
  | @setDefault ref value v text t ht htext hv =>
    refine ⟨by simp, ?_⟩
    obtain ⟨s, hs, rfl⟩ := List.mem_map.mp hr
    by_cases hname : s.name = ref.name
    · have hnewDefault : ctx.newDefault ref value = .ok text := newDefault_of_parse ht htext hv
      have hgives : Gives ctx (.setDefault ref value) ref.name value := .setting (by rw [setDefault, hnewDefault])
      rw [if_pos hname] at h
      exact absurd (hname ▸ hgives) (h value)
    · rw [if_neg hname]
      exact ⟨s, hs, rfl, rfl⟩

/-- Every default of a reachable context has been given. -/
theorem Reachable.exists_lastGiven (h : ctx.Reachable) : ∀ r ∈ ctx.registry.records, ∃ v, LastGiven r.name ctx v := by
  induction h with
  | empty => exact nofun
  | @after ctx hctx op ih =>
    intro r hr
    by_cases hgives : ∃ v, Gives ctx op r.name v
    · obtain ⟨v, hgives⟩ := hgives
      exact ⟨v, .here hctx hgives⟩
    · have hkeeps := not_exists.mp hgives
      obtain ⟨hop, s, hs, hname, -⟩ := exists_default_of_not_gives hr hkeeps
      obtain ⟨v, hv⟩ := ih s hs
      rw [hname] at hv
      exact ⟨v, .earlier hv hop hkeeps⟩

/-- The text of a default is that of the value that was given last. -/
theorem LastGiven.toText_eq {name : String} {v : Value} (h : LastGiven name ctx v) :
    ∀ r ∈ ctx.registry.records, r.name = name → v.toText = .ok r.default := by
  induction h with
  | here _ hgives =>
    rintro r hr rfl
    exact hgives.toText_eq hr
  | earlier _ _ hkeeps ih =>
    rintro r hr rfl
    obtain ⟨-, s, hs, hname, hdefault⟩ := exists_default_of_not_gives hr hkeeps
    rw [← hdefault]
    exact ih s hs hname

/-! ## What is shown of boolean parameters -/

/-- A boolean parameter has been given a default, and has it as its value where the tree has no text for it. The usage message
shows that value exactly if the text of what was given last is `0` or `1`, as it is for truth values. For everything else that can
be given it shows true, where the value is false. -/
theorem shown_default_right_iff (h : ctx.Reachable) {r : Record} (hr : r ∈ ctx.registry.records) (hk : r.kind = .boolean) :
    (∃ v, LastGiven r.name ctx v) ∧
      ∃ b, r.defaultValue = .ok (.bool b) ∧ (ctx.tree.get? r.name = none → ctx.Yields r.name (.bool b)) ∧
        ∀ v, LastGiven r.name ctx v →
          (r.shownDefault = truthText b ↔ v.toText = .ok "0" ∨ v.toText = .ok "1") ∧
            (r.shownDefault ≠ truthText b → b = false ∧ r.shownDefault = truthText true) ∧
            ∀ c, v = .bool c → b = c ∧ r.shownDefault = truthText c := by
  have hfind := Registry.find?_of_mem h.valid.registry.nodup hr
  have hshown := Record.shownDefault_eq_iff hk
  refine ⟨h.exists_lastGiven r hr, r.default == "1", Record.defaultValue_of_boolean hk,
    fun hnone => yields_of_default hfind (Record.type_of_boolean hk) rfl rfl hnone, fun v hv => ?_⟩
  have htext := hv.toText_eq r hr rfl
  refine ⟨?_, fun hwrong => ?_, ?_⟩
  · rw [hshown, htext]
    simp
  · rw [Ne, hshown, not_or] at hwrong
    rw [Record.shownDefault_of_boolean hk]
    exact ⟨by simpa using hwrong.2, congrArg truthText (by simpa using hwrong.1)⟩
  · rintro c rfl
    have hdefault : (if c then "1" else "0") = r.default := Except.ok.inj htext
    rw [Record.shownDefault_of_boolean hk, ← hdefault]
    cases c <;> exact ⟨rfl, rfl⟩

/-- A parameter with a truth value as its default, which is then set to a number: the number is shown as true and read as false. -/
theorem shown_default_right_iff_of_number :
    let verbose : Declaration := ⟨"Verbose", none, ⟨some (.bool true), none⟩, []⟩
    let registered := (empty.after (.register (.declared verbose) "Print more")).after .endRegistration
    let ctx := registered.after (.setDefault (.named "Verbose") (.int 2))
    let r : Record := ⟨"Verbose", some .bool, "Print more", "2", false⟩
    ctx.Reachable ∧ r ∈ ctx.registry.records ∧ r.kind = .boolean ∧ LastGiven "Verbose" ctx (.int 2) ∧
      ctx.Yields "Verbose" (.bool false) ∧ r.shownDefault = "true" := by
  intro verbose registered ctx r
  have hregistered : registered.Reachable := .after (.after .empty _) _
  have hr : r ∈ ctx.registry.records := by decide +kernel
  have hgives : Gives registered (.setDefault (.named "Verbose") (.int 2)) "Verbose" (.int 2) := .setting (by decide +kernel)
  have hgiven : LastGiven "Verbose" ctx (.int 2) := .here hregistered hgives
  obtain ⟨-, b, -, hyields, hshown⟩ := shown_default_right_iff (hregistered.after _) hr rfl
  obtain ⟨hiff, hwrong, -⟩ := hshown (.int 2) hgiven
  have htext : Value.toText (.int 2) = .ok "2" := by decide +kernel
  have hnot : ¬ r.shownDefault = truthText b := by
    rw [hiff, htext]
    decide
  obtain ⟨rfl, htrue⟩ := hwrong hnot
  exact ⟨hregistered.after _, hr, rfl, hgiven, hyields (by decide +kernel), htrue⟩

/-- A text as the default of a parameter with a boolean type of its own is shown as true, and is not what the parameter is. -/
theorem shown_default_wrong_of_text :
    let verbose : Declaration := ⟨"Verbose", none, ⟨some (.text "yes"), some (some .bool)⟩, []⟩
    let ctx := (empty.after (.register (.declared verbose) "Print more")).after .endRegistration
    let r : Record := ⟨"Verbose", some .bool, "Print more", "yes", false⟩
    ctx.Reachable ∧ ctx.registry.records = [r] ∧ r.kind = .boolean ∧ r.defaultValue = .ok (.bool false) ∧
      ctx.Yields "Verbose" (.bool false) ∧ r.shownDefault = "true" := by
  intro verbose ctx r
  have hctx : ctx.Reachable := .after (.after .empty _) _
  have hrecords : ctx.registry.records = [r] := by decide +kernel
  have hfind : ctx.registry.find? "Verbose" = some r := by decide +kernel
  exact ⟨hctx, hrecords, rfl, rfl, yields_of_default hfind rfl rfl rfl (by decide +kernel), rfl⟩

end Context

end RunParams

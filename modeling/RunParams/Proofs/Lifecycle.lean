import RunParams.Proofs.KeySpelling
import RunParams.Proofs.Runs

/-!
# The life cycle of a context

A registry is open until registration ends, and then closed until the context is cleared. While it is open, every registered
parameter is to be read back, and while it is closed, none; and then nothing of a registered parameter changes but its default.
-/

namespace RunParams

/-- All of a record but its default. -/
def Record.fixed (r : Record) : String × Option ValueType × String × Kind × Bool :=
  (r.name, r.type, r.usage, r.kind, r.hidden)

namespace Registry

variable {reg reg' : Registry String}

theorem isOpen_eq_true_iff : reg.isOpen = true ↔ reg.phase = .opened := by
  rw [isOpen, beq_iff_eq]

theorem isOpen_eq_false_iff : reg.isOpen = false ↔ reg.phase = .closed := by
  cases h : reg.phase <;> simp [isOpen, h]

/-- As many parameters are to be read back as are registered while the registry is open, and none once it is closed. -/
theorem Valid.length_pending (h : reg.Valid) :
    reg.pending.length = if reg.phase = .opened then reg.records.length else 0 := by
  rw [h.pending]
  simp only [isOpen_eq_true_iff]
  split
  · rw [names, List.length_map]
  · rfl

/-- In a closed registry every step leaves all of the records but their defaults. -/
theorem Step.fixed_eq (h : Step reg reg') (hc : reg.isOpen = false) :
    reg'.records.map Record.fixed = reg.records.map Record.fixed := by
  cases h with
  | same => rfl
  | add r ho => simp [hc] at ho
  | hide n ho => simp [hc] at ho
  | setDefault hr hv => exact map_modify _ _ fun _ => rfl
  | close ho => simp [hc] at ho

end Registry

namespace Context

variable {reg reg' : Registry String} {op : Operation}

/-! ## Operations -/

/-- Only the end of registration closes a registry. -/
theorem Effect.eq_endRegistration (h : Effect reg op reg') (ho : reg.phase = .opened) (hc : reg'.phase = .closed) :
    op = .endRegistration := by
  have hne : reg.phase ≠ .closed := by simp [ho]
  cases h with
  | nothing _ => exact absurd hc hne
  | register _ _ _ _ => exact absurd hc hne
  | hide _ => exact absurd hc hne
  | endRegistration _ => rfl
  | reset => cases hc
  | setDefault _ _ _ => exact absurd hc hne

/-- Only clearing opens a registry. -/
theorem Effect.eq_reset (h : Effect reg op reg') (hc : reg.phase = .closed) (ho : reg'.phase = .opened) : op = .reset := by
  have hne : reg.phase ≠ .opened := by simp [hc]
  cases h with
  | nothing _ => exact absurd ho hne
  | register _ _ _ _ => exact absurd ho hne
  | hide _ => exact absurd ho hne
  | endRegistration _ => cases ho
  | reset => rfl
  | setDefault _ _ _ => exact absurd ho hne

/-- Only clearing and a new default change a closed registry. -/
theorem Effect.eq_self (h : Effect reg op reg') (hc : reg.isOpen = false) (hreset : op ≠ .reset)
    (hset : ∀ ref value, op ≠ .setDefault ref value) : reg' = reg := by
  cases h with
  | nothing _ => rfl
  | register _ ho _ _ => simp [hc] at ho
  | hide ho => simp [hc] at ho
  | endRegistration ho => simp [hc] at ho
  | reset => exact absurd rfl hreset
  | setDefault _ _ _ => exact absurd rfl (hset _ _)

/-! ## Runs -/

/-- A closed context stays closed as long as it is not cleared, and nothing of its records changes but their defaults. -/
theorem Continues.fixed_eq {ctx c : Context} (h : ctx.Continues c) (hc : ctx.registry.isOpen = false) :
    c.registry.isOpen = false ∧ c.registry.records.map Record.fixed = ctx.registry.records.map Record.fixed := by
  induction h with
  | refl => exact ⟨hc, rfl⟩
  | @after c _ op hop ih =>
    obtain ⟨hclosed, hfixed⟩ := ih
    have hstep := registry_after c hop
    exact ⟨hstep.isOpen_eq_false hclosed, (hstep.fixed_eq hclosed).trans hfixed⟩

/-- The life cycle of every context that operations lead to, whether they succeed or fail. A record is found under its own name,
which is canonical, and under no other. As many parameters are to be read back as are registered while the context is open, and
none while it is closed. Only the end of registration closes it, and only clearing opens it again. As long as it is closed,
however long that is, nothing of its records changes but their defaults, and these only by setting a default. -/
theorem lifecycle {ctx : Context} (h : ctx.Reachable) :
    (∀ n r, ctx.registry.find? n = some r ↔ r ∈ ctx.registry.records ∧ r.name = n) ∧
      (∀ r ∈ ctx.registry.records, Spelling.IsCanonical r.name) ∧
      ctx.registry.pending.length = (if ctx.registry.phase = .opened then ctx.registry.records.length else 0) ∧
      (∀ op, ctx.registry.phase = .opened → (ctx.after op).registry.phase = .closed → op = .endRegistration) ∧
      (∀ op, ctx.registry.phase = .closed → (ctx.after op).registry.phase = .opened → op = .reset) ∧
      (ctx.registry.phase = .closed → ∀ c, ctx.Continues c →
        c.registry.phase = .closed ∧ c.registry.records.map Record.fixed = ctx.registry.records.map Record.fixed) ∧
      ∀ op, ctx.registry.phase = .closed → (ctx.after op).registry.phase = .closed →
        (ctx.after op).registry.records.map Record.fixed = ctx.registry.records.map Record.fixed ∧
          ((∀ ref value, op ≠ .setDefault ref value) → (ctx.after op).registry.records = ctx.registry.records) := by
  have hv := h.valid.registry
  refine ⟨fun n r => Registry.find?_eq_some_iff hv.nodup, ?_, hv.length_pending, fun op => (ctx.effect_after op).eq_endRegistration,
    fun op => (ctx.effect_after op).eq_reset, ?_, ?_⟩
  · intro r hr
    exact Spelling.canonicalize_eq_self_iff.mp (hv.canonical r.name (List.mem_map.mpr ⟨r, hr, rfl⟩))
  · intro hc c hrun
    obtain ⟨hclosed, hfixed⟩ := hrun.fixed_eq (Registry.isOpen_eq_false_iff.mpr hc)
    exact ⟨Registry.isOpen_eq_false_iff.mp hclosed, hfixed⟩
  · intro op hc hc'
    have hclosed := Registry.isOpen_eq_false_iff.mpr hc
    -- Clearing would have opened the context.
    have hreset : op ≠ .reset := by
      rintro rfl
      cases hc'
    refine ⟨((Continues.refl.after hreset).fixed_eq hclosed).2, fun hset => ?_⟩
    rw [(ctx.effect_after op).eq_self hclosed hreset hset]

/-- A parameter that is hidden, and given another default once registration has ended. -/
theorem lifecycle_of_hidden_parameter :
    let count : Declaration := ⟨"Count", none, ⟨some (.int 3), none⟩, []⟩
    let opened := (empty.after (.register (.declared count) "How many.")).after (.hide (.named "Count"))
    let closed := opened.after .endRegistration
    let changed := (closed.after (.hide (.named "Other"))).after (.setDefault (.named "Count") (.int 5))
    opened.registry.pending.length = 1 ∧ closed.registry.pending.length = 0 ∧ changed.registry.phase = .closed ∧
      changed.registry.records.map Record.fixed = closed.registry.records.map Record.fixed ∧
      changed.registry.records = [⟨"Count", some .int, "How many.", "5", true⟩] := by
  intro count opened closed changed
  have hreach : opened.Reachable := (Reachable.empty.after _).after _
  have hreach' : closed.Reachable := hreach.after _
  have hclosed : closed.registry.phase = .closed := by decide +kernel
  obtain ⟨-, -, hpending, -⟩ := lifecycle hreach
  obtain ⟨-, -, hpending', -, -, hrun, -⟩ := lifecycle hreach'
  have hhide : Operation.hide (.named "Other") ≠ .reset := nofun
  have hset : Operation.setDefault (.named "Count") (.int 5) ≠ .reset := nofun
  have hchanged : closed.Continues changed := (Continues.refl.after hhide).after hset
  obtain ⟨hphase, hfixed⟩ := hrun hclosed changed hchanged
  rw [if_neg (by rw [hclosed]; decide)] at hpending'
  exact ⟨hpending.trans (by decide +kernel), hpending', hphase, hfixed, by decide +kernel⟩

end Context

end RunParams

import Mathlib.Data.List.Nodup
import RunParams.Context
import RunParams.Proofs.Results

/-!
# Registrations

What the registry knows of a name, and what can happen to it: a new parameter, one that is hidden, another default, or its
closing. All other operations leave it.
-/

namespace RunParams

namespace Registry

/-! ## What is registered -/

section

variable {φ : Type} {reg : Registry φ}

/-- The record that is found for a name has that name. -/
theorem name_of_find? {n : String} {r : Record} (h : reg.find? n = some r) : r.name = n := by
  simpa using List.find?_some h

theorem mem_of_find? {n : String} {r : Record} (h : reg.find? n = some r) : r ∈ reg.records :=
  List.mem_of_find?_eq_some h

/-- A name has no record exactly when it is not registered. -/
theorem find?_eq_none_iff {n : String} : reg.find? n = none ↔ n ∉ reg.names := by
  rw [find?, List.find?_eq_none, names, List.mem_map]
  constructor
  · rintro h ⟨r, hr, rfl⟩
    exact h r hr (by simp)
  · intro h r hr hn
    exact h ⟨r, hr, by simpa using hn⟩

theorem contains_iff {n : String} : reg.contains n = true ↔ n ∈ reg.names := by
  rw [contains, Option.isSome_iff_ne_none, ne_eq, find?_eq_none_iff, not_not]

/-- A name has a record exactly when it is registered. -/
theorem exists_find?_iff {n : String} : (∃ r, reg.find? n = some r) ↔ n ∈ reg.names := by
  rw [← Option.isSome_iff_exists, ← contains, contains_iff]

/-- A record is found for its own name if no name is registered twice. -/
theorem find?_of_mem (hn : reg.names.Nodup) {r : Record} (hr : r ∈ reg.records) : reg.find? r.name = some r := by
  cases h : reg.find? r.name with
  | none => exact absurd (List.mem_map.mpr ⟨r, hr, rfl⟩) (find?_eq_none_iff.mp h)
  | some s => rw [List.inj_on_of_nodup_map hn hr (mem_of_find? h) (name_of_find? h).symm]

/-- The record of a name is the one of the records that has this name, if no name is registered twice. -/
theorem find?_eq_some_iff (hn : reg.names.Nodup) {n : String} {r : Record} :
    reg.find? n = some r ↔ r ∈ reg.records ∧ r.name = n := by
  constructor
  · intro hr
    exact ⟨mem_of_find? hr, name_of_find? hr⟩
  · rintro ⟨hr, rfl⟩
    exact find?_of_mem hn hr

/-- The record of a name where one more record comes behind the others. -/
theorem find?_of_records_append {reg' : Registry φ} {r : Record} (hrecords : reg'.records = reg.records ++ [r]) (n : String) :
    reg'.find? n = (reg.find? n).or (if r.name = n then some r else none) := by
  rw [find?, hrecords, List.find?_append]
  by_cases hn : r.name = n
  · simp [find?, hn]
  · simp [find?, hn]

/-- What a change of a record leaves of it is left of all records. -/
theorem map_modify {α : Type} (reg : Registry φ) (n : String) {f : Record → Record} {g : Record → α}
    (hg : ∀ r, g (f r) = g r) : (reg.modify n f).records.map g = reg.records.map g := by
  rw [modify, List.map_map]
  apply List.map_congr_left
  intro r _
  by_cases h : r.name = n
  · simp [h, hg]
  · simp [h]

/-- Changing a record without its name keeps the names. -/
theorem names_modify (reg : Registry φ) (n : String) {f : Record → Record} (hf : ∀ r, (f r).name = r.name) :
    (reg.modify n f).names = reg.names :=
  map_modify reg n hf

/-- The record of a name after the record of some name was changed. -/
theorem find?_modify_eq (reg : Registry φ) (n m : String) {f : Record → Record} (hf : ∀ r, (f r).name = r.name) :
    (reg.modify n f).find? m = (reg.find? m).map fun r => if r.name = n then f r else r := by
  have hkeep : ∀ r : Record, (if r.name = n then f r else r).name = r.name := by
    intro r
    split
    · exact hf r
    · rfl
  rw [find?, modify, List.find?_map]
  simp only [Function.comp_def, hkeep]
  rfl

/-- The record of a name after it was changed. -/
theorem find?_modify {n : String} {r : Record} (h : reg.find? n = some r) {f : Record → Record}
    (hf : ∀ r, (f r).name = r.name) : (reg.modify n f).find? n = some (f r) := by
  rw [find?_modify_eq _ _ _ hf, h, Option.map_some, if_pos (name_of_find? h)]

/-- Changing the record of a name keeps those of the other names. -/
theorem find?_modify_of_ne {n m : String} (h : m ≠ n) {f : Record → Record} (hf : ∀ r, (f r).name = r.name) :
    (reg.modify n f).find? m = reg.find? m := by
  rw [find?_modify_eq _ _ _ hf]
  cases hfind : reg.find? m with
  | none => rfl
  | some r => rw [Option.map_some, if_neg (name_of_find? hfind ▸ h)]

end

/-! ## What happens to a registry -/

/-- A registry as closing leaves it. -/
def afterClose {φ : Type} (reg : Registry φ) : Registry φ :=
  { reg with phase := .closed, pending := [] }

/-- Closing runs the pending finalizers on the closed registry, and is refused if the registry is closed already. -/
theorem close_eq {φ ε : Type} (reg : Registry φ) (task : φ → Registry φ → Task φ ε) :
    reg.close task = if reg.isOpen = true then .ok (finish task reg.afterClose reg.pending)
      else .error (.closed "Parameter registration was already closed. It is only possible to close it once.") := by
  by_cases ho : reg.isOpen = true
  · rw [close, requireOpen, if_pos ho, if_pos ho]
    rfl
  · rw [close, requireOpen, if_neg ho, if_neg ho]
    rfl

/-- What an operation may do to a registry without clearing it. -/
inductive Step (reg : Registry String) : Registry String → Prop
  | same : Step reg reg
  | add (r : Record) (hopen : reg.isOpen = true) (hname : Spelling.canonicalize true r.name = .ok r.name)
      (hnew : r.name ∉ reg.names) :
      Step reg { reg with records := reg.records ++ [r], pending := reg.pending ++ [r.name] }
  | hide (n : String) (hopen : reg.isOpen = true) : Step reg (reg.modify n fun r => { r with hidden := true })
  | setDefault {n text : String} {r : Record} {v : Value} (hr : reg.find? n = some r) (hv : r.parse text "" = .ok v) :
      Step reg (reg.modify n fun r => { r with default := text })
  | close (hopen : reg.isOpen = true) : Step reg reg.afterClose

/-- A registry admits a new record while it is open, if the name is canonical and not registered. -/
theorem admits_eq_true_iff {φ : Type} {reg : Registry φ} {r : Record} :
    reg.admits r = .ok true ↔
      reg.isOpen = true ∧ Spelling.canonicalize true r.name = .ok r.name ∧ r.name ∉ reg.names := by
  rw [← find?_eq_none_iff, admits, requireOpen]
  by_cases ho : reg.isOpen = true
  · cases hc : Spelling.canonicalize true r.name with
    | error e => simp [ho, Except.mapError, bind, Except.bind]
    | ok c =>
      by_cases hcr : c = r.name
      · cases hf : reg.find? r.name with
        | none => simp [ho, hcr, Except.mapError, bind, Except.bind, pure, Except.pure]
        | some known =>
          by_cases hs : known.same r = true <;>
            simp [ho, hcr, hs, Except.mapError, bind, Except.bind, pure, Except.pure, throw, throwThe, MonadExceptOf.throw]
      · simp [ho, hcr, Except.mapError, bind, Except.bind, throw, throwThe, MonadExceptOf.throw]
  · simp [ho, bind, Except.bind]

/-- A registration leaves the registry, or adds a new record with a canonical name while the registry is open. -/
theorem register_fst {φ : Type} (reg : Registry φ) (r : Record) (finalizer : Option φ) :
    (reg.register r finalizer).1 = reg ∨
      reg.isOpen = true ∧ Spelling.canonicalize true r.name = .ok r.name ∧ r.name ∉ reg.names ∧
        (reg.register r finalizer).1 =
          { reg with records := reg.records ++ [r], pending := reg.pending ++ finalizer.toList } := by
  unfold register
  split
  · rename_i h
    obtain ⟨ho, hc, hn⟩ := admits_eq_true_iff.mp h
    exact .inr ⟨ho, hc, hn, rfl⟩
  · exact .inl rfl

/-- Hiding leaves the registry, or marks the record while the registry is open. -/
theorem hide_fst {φ : Type} (reg : Registry φ) (n : String) :
    (reg.hide n).1 = reg ∨ reg.isOpen = true ∧ (reg.hide n).1 = reg.modify n fun r => { r with hidden := true } := by
  unfold Registry.hide
  split
  · rename_i r h
    obtain ⟨u, ho, -⟩ := bind_eq_ok.mp h
    refine .inr ⟨?_, rfl⟩
    by_contra hc
    simp [requireOpen, hc] at ho
  · exact .inl rfl

/-- The registry stays closed in every step. -/
theorem Step.isOpen_eq_false {reg reg' : Registry String} (h : Step reg reg') (hc : reg.isOpen = false) :
    reg'.isOpen = false := by
  cases h with
  | same => exact hc
  | add r ho => simp [hc] at ho
  | hide n ho => simp [hc] at ho
  | setDefault hr hv => exact hc
  | close ho => simp [hc] at ho

/-- A closed registry keeps its names in every step. -/
theorem Step.names_eq {reg reg' : Registry String} (h : Step reg reg') (hc : reg.isOpen = false) :
    reg'.names = reg.names := by
  cases h with
  | same => rfl
  | add r ho => simp [hc] at ho
  | hide n ho => simp [hc] at ho
  | setDefault hr hv => exact names_modify _ _ fun _ => rfl
  | close ho => simp [hc] at ho

/-! ## Names and pending finalizers -/

/-- What holds of every registry: its names are canonical and differ from each other, and all of them are to be read back while
it is open, and none once it is closed. -/
structure Valid (reg : Registry String) : Prop where
  nodup : reg.names.Nodup
  canonical : ∀ n ∈ reg.names, Spelling.canonicalize true n = .ok n
  pending : reg.pending = if reg.isOpen then reg.names else []

theorem valid_empty : (empty : Registry String).Valid :=
  ⟨List.nodup_nil, by simp [names, empty], rfl⟩

/-- Every step keeps what holds of every registry. -/
theorem Valid.step {reg reg' : Registry String} (h : reg.Valid) (hs : Step reg reg') : reg'.Valid := by
  cases hs with
  | same => exact h
  | add r ho hc hn =>
    have hnames : reg.names ++ [r.name] = (reg.records ++ [r]).map (·.name) := by simp [names]
    refine ⟨?_, ?_, ?_⟩
    · rw [names, ← hnames]
      exact List.nodup_append.mpr ⟨h.nodup, by simp, fun a ha b hb => by
        rw [List.mem_singleton.mp hb]
        exact fun e => hn (e ▸ ha)⟩
    · intro n hn
      rw [names, ← hnames, List.mem_append, List.mem_singleton] at hn
      rcases hn with hn | rfl
      · exact h.canonical n hn
      · exact hc
    · have hopen : (reg.phase == .opened) = true := ho
      have hp := h.pending
      rw [if_pos ho] at hp
      simp [isOpen, hopen, names, hp]
  | hide n ho =>
    have hnames := reg.names_modify n (f := fun r => { r with hidden := true }) fun _ => rfl
    refine ⟨by rw [hnames]; exact h.nodup, by rw [hnames]; exact h.canonical, ?_⟩
    rw [hnames]
    exact h.pending
  | @setDefault n text r v hr hv =>
    have hnames := reg.names_modify n (f := fun r => { r with default := text }) fun _ => rfl
    refine ⟨by rw [hnames]; exact h.nodup, by rw [hnames]; exact h.canonical, ?_⟩
    rw [hnames]
    exact h.pending
  | close ho => exact ⟨h.nodup, h.canonical, rfl⟩

/-! ## Readable defaults -/

/-- The default of every record can be read. -/
def ReadableDefaults {φ : Type} (reg : Registry φ) : Prop :=
  ∀ r ∈ reg.records, ∃ v, r.defaultValue = .ok v

/-- In a closed registry the defaults stay readable in every step. -/
theorem ReadableDefaults.step {reg reg' : Registry String} (h : reg.ReadableDefaults) (hn : reg.names.Nodup)
    (hc : reg.isOpen = false) (hs : Step reg reg') : reg'.ReadableDefaults := by
  cases hs with
  | same => exact h
  | add r ho => simp [hc] at ho
  | hide n ho => simp [hc] at ho
  | @setDefault n text r v hr hv =>
    intro s hs
    obtain ⟨t, ht, rfl⟩ := List.mem_map.mp hs
    by_cases htn : t.name = n
    · have htr : t = r := by
        have := find?_of_mem hn ht
        rw [htn, hr] at this
        exact (Option.some.inj this).symm
      subst htr
      rw [if_pos htn]
      exact ⟨v, hv⟩
    · rw [if_neg htn]
      exact h t ht
  | close ho => simp [hc] at ho

end Registry

end RunParams

import RunParams.Proofs.ValuesRoundTrip

/-!
# One text for each parameter

A closed context tells of a parameter in several ways: its value can be read, it can be asked whether it is set, and it is listed in
the report of all values, in the snapshot and among what is used. Each of these looks the text up by itself, in the tree or in the
registry. They agree on the text.
-/

namespace RunParams

namespace Context

/-! ## What is told of one parameter -/

section

variable {ctx : Context}

/-- Lines below a header, and nothing if there are none. -/
def headed (header : String) (lines : List String) : String :=
  if lines.isEmpty then "" else header ++ String.join lines

/-- What it means that the reports of a context show the known keys with given texts, and defaults beside those that are set. -/
structure Shows (ctx : Context) (text default : String → String) : Prop where
  /-- The report of all values has a line for each key, in the section for its part of the known keys. -/
  values : Report.values ctx = .ok
    (headed "# [known parameters which were specified at run-time]\n"
        (ctx.partition.runtime.map fun n => s!"{n}=\"{text n}\" # default: \"{default n}\"\n") ++
      headed "# [parameters which were specified at compile-time]\n"
        (ctx.partition.compileTime.map fun n => s!"{n}=\"{text n}\"\n") ++
      headed "# [unused run-time specified parameters]\n"
        (ctx.partition.unknown.map fun k => s!"{k}=\"{text k}\"\n"))
  /-- So has the listing of any names. -/
  listing : ∀ names defaults, (∀ n ∈ names, n ∈ ctx.registry.names) →
    Report.listing ctx names defaults = .ok (String.join (names.map fun n =>
      if defaults then s!"{n}=\"{text n}\" # default: \"{default n}\"\n" else s!"{n}=\"{text n}\"\n"))
  snapshot : ctx.snapshot =
    { runtime := ctx.partition.runtime.map fun n => (n, ⟨text n, default n⟩)
      compileTime := ctx.partition.compileTime.map fun n => (n, text n)
      unused := ctx.partition.unknown.map fun k => (k, text k) }
  lists : ctx.lists = .ok (ctx.partition.runtime.map fun n => (n, text n), ctx.partition.unknown.map fun k => (k, text k))
  /-- The default of a parameter is its current one. -/
  defaults : ∀ r ∈ ctx.registry.records, default r.name = r.default

theorem pairLine_eq (key value : String) : Report.pairLine key value = s!"{key}=\"{value}\"\n" := by
  apply String.toList_injective
  simp [Report.pairLine, Report.pair, toString]

theorem settingLine_eq (key : String) (setting : Setting) :
    Report.settingLine key setting = s!"{key}=\"{setting.value}\" # default: \"{setting.default}\"\n" := by
  apply String.toList_injective
  simp [Report.settingLine, Report.pair, toString]

/-- A section of the report is its lines below a header of its own. -/
theorem titled_eq_headed {header first : String} (hfirst : "# [" ++ header ++ "]\n" = first) (keys : List String)
    (line : String → String) : Report.titled header keys (String.join (keys.map line)) = headed first (keys.map line) := by
  rw [Report.titled, headed, List.isEmpty_map, ← hfirst]
  rfl

/-- The reports of a closed context show the texts that are known of the keys. -/
theorem Valid.shows (h : ctx.Valid) (hc : ctx.registry.isOpen = false) : ctx.Shows ctx.knownText ctx.defaultText := by
  have hruntime : ∀ n ∈ ctx.partition.runtime, (ctx.withValue n).2 = ctx.knownText n :=
    fun n hn => (knownText_of_hasKey (h.mem_runtime.mp hn).2).1
  have hunknown : ∀ k ∈ ctx.partition.unknown, (ctx.withValue k).2 = ctx.knownText k := by
    intro k hk
    have hkey := h.tree.wellFormed.mem_keys_iff.mp (ctx.perm_keys.mem_iff.mp (List.mem_append_right _ hk))
    exact (knownText_of_hasKey hkey).1
  have hused : ctx.partition.runtime.map ctx.withValue = ctx.partition.runtime.map fun n => (n, ctx.knownText n) :=
    List.map_congr_left fun n hn => Prod.ext rfl (hruntime n hn)
  have hunused : ctx.partition.unknown.map ctx.withValue = ctx.partition.unknown.map fun k => (k, ctx.knownText k) :=
    List.map_congr_left fun k hk => Prod.ext rfl (hunknown k hk)
  refine ⟨?_, ?_, ?_, ?_, ?_⟩
  · simp only [Report.values_eq h, settingLine_eq, pairLine_eq]
    rw [titled_eq_headed rfl, titled_eq_headed rfl, titled_eq_headed rfl]
    rfl
  · intro names defaults hnames
    simp only [Report.listing_eq ctx defaults hnames, settingLine_eq, pairLine_eq]
  · have hset : (ctx.partition.runtime.map fun n => (n, (⟨(ctx.withValue n).2, ctx.defaultText n⟩ : Setting))) =
        ctx.partition.runtime.map fun n => (n, ⟨ctx.knownText n, ctx.defaultText n⟩) :=
      List.map_congr_left fun n hn => by rw [hruntime n hn]
    rw [snapshot, hset, hunused]
    rfl
  · rw [← hused, ← hunused]
    simp [lists, Registry.requireClosed, hc, Except.mapError, bind, Except.bind, pure, Except.pure]
  · intro r hr
    simp [defaultText, Registry.find?_of_mem h.registry.nodup hr]

end

end Context

end RunParams

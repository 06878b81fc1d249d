import RunParams.Proofs.ListingRoundTrip
import RunParams.Proofs.Partition
import RunParams.Proofs.Redeclaration

/-!
# Reading all values back

The report of all values is a document: its headers and the defaults that it shows are comments, and no key of it stands above
another one. Read into a fresh context it gives every parameter the text that it had, and so the value.
-/

namespace RunParams

open Document (LineForm)
open Report (Plain)
open Spelling (IsCanonicalPath)

namespace Context

/-! ## All known keys and their texts -/

/-- All known keys, in the order in which they are reported. -/
def knownKeys (ctx : Context) : List String :=
  ctx.partition.runtime ++ ctx.partition.compileTime ++ ctx.partition.unknown

/-- The text of a known key: the one in the tree, or else the default. -/
def knownText (ctx : Context) (key : String) : String :=
  (ctx.tree.get? key).getD (ctx.defaultText key)

/-- What it takes for all values of a context to be read back from their report. -/
structure Dumpable (ctx : Context) : Prop where
  /-- The keys of the tree are canonical. -/
  canonical : ∀ k ∈ ctx.tree.keys, IsCanonicalPath k
  /-- No registered name is that of a sub-tree. -/
  noSub : ∀ n ∈ ctx.registry.names, ctx.tree.hasSub n = false
  /-- The texts of registered parameters are plain. -/
  plainNames : ∀ n ∈ ctx.registry.names, ∀ text, ctx.effectiveText n = .ok text → Plain text
  /-- So are the values of all other keys. -/
  plainOthers : ∀ k v, ctx.tree.get? k = some v → k ∉ ctx.registry.names → Plain v
  /-- The default of a parameter that is set fits on the line behind its value. -/
  defaultOnLine : ∀ n ∈ ctx.registry.names, ctx.tree.hasKey n = true → '\n' ∉ (ctx.defaultText n).toList

section

variable {ctx : Context}

/-- The effective text of a registered parameter is that of a known key. -/
theorem effectiveText_of_find? {n : String} {r : Record} (hr : ctx.registry.find? n = some r) :
    ctx.effectiveText n = .ok (ctx.knownText n) ∧ ctx.knownText n = (ctx.tree.get? n).getD r.default := by
  simp [effectiveText, knownText, defaultText, hr]

theorem knownText_of_hasKey {k : String} (hk : ctx.tree.hasKey k = true) :
    (ctx.withValue k).2 = ctx.knownText k ∧ ctx.tree.get? k = some (ctx.knownText k) := by
  obtain ⟨v, hv⟩ := Option.isSome_iff_exists.mp hk
  simp [withValue, knownText, hv]

/-- The known keys are the registered names and the keys of the tree. -/
theorem Valid.mem_knownKeys (h : ctx.Valid) {k : String} :
    k ∈ ctx.knownKeys ↔ k ∈ ctx.registry.names ∨ k ∈ ctx.tree.keys := by
  have hkeys : k ∈ ctx.partition.runtime ∨ k ∈ ctx.partition.unknown ↔ k ∈ ctx.tree.keys := by
    rw [← List.mem_append, ctx.perm_keys.mem_iff]
  rw [knownKeys, List.mem_append, List.mem_append, or_right_comm, hkeys, mem_compileTime, h.tree.wellFormed.mem_keys_iff]
  cases ctx.tree.hasKey k <;> simp

/-- No known key is reported twice. -/
theorem Valid.nodup_knownKeys (h : ctx.Valid) : ctx.knownKeys.Nodup := by
  have hdivided := h.dividedBy_partition
  have hperm : ctx.knownKeys.Perm (ctx.partition.runtime ++ ctx.partition.unknown ++ ctx.partition.compileTime) := by
    rw [knownKeys, List.append_assoc, List.append_assoc]
    exact List.Perm.append_left _ List.perm_append_comm
  rw [hperm.nodup_iff, List.nodup_append]
  refine ⟨hdivided.nodup, hdivided.ascending.imp fun hab => String.ne_of_lt hab, ?_⟩
  rintro k hk _ hk' rfl
  have hkey : ctx.tree.hasKey k = true := h.tree.wellFormed.mem_keys_iff.mp (ctx.perm_keys.mem_iff.mp hk)
  rw [(mem_compileTime.mp hk').2] at hkey
  cases hkey

theorem Valid.isCanonical_of_mem_names (h : ctx.Valid) {n : String} (hn : n ∈ ctx.registry.names) : Spelling.IsCanonical n :=
  Spelling.canonicalize_eq_self_iff.mp (h.registry.canonical n hn)

namespace Dumpable

/-- Every known key is canonical. -/
theorem isCanonicalPath (hd : ctx.Dumpable) (h : ctx.Valid) {k : String} (hk : k ∈ ctx.knownKeys) : IsCanonicalPath k := by
  rcases h.mem_knownKeys.mp hk with hn | hk
  · have hcanonical := h.isCanonical_of_mem_names hn
    intro m hm
    rw [segments_of_dotFree hcanonical.dotFree, List.mem_singleton] at hm
    exact hm ▸ hcanonical
  · exact hd.canonical k hk

/-- The text of every known key is plain. -/
theorem plain (hd : ctx.Dumpable) (h : ctx.Valid) {k : String} (hk : k ∈ ctx.knownKeys) : Plain (ctx.knownText k) := by
  by_cases hn : k ∈ ctx.registry.names
  · obtain ⟨r, hr⟩ := Registry.exists_find?_iff.mpr hn
    exact hd.plainNames k hn _ (effectiveText_of_find? hr).1
  · have hkey : ctx.tree.hasKey k = true := h.tree.wellFormed.mem_keys_iff.mp ((h.mem_knownKeys.mp hk).resolve_left hn)
    exact hd.plainOthers k _ (knownText_of_hasKey hkey).2 hn

/-- No known key stands above another one: names have no dots, and are not those of sub-trees. -/
theorem prefixFree (hd : ctx.Dumpable) (h : ctx.Valid) : PrefixFree (· ∈ ctx.knownKeys) := by
  intro p q hp hq habove
  have hw := h.tree.wellFormed
  rcases h.mem_knownKeys.mp hq with hq | hq
  · exact habove.not_dotFree (h.isCanonical_of_mem_names hq).dotFree
  · rcases h.mem_knownKeys.mp hp with hp | hp
    · have hsub : ctx.tree.hasSub p = true := hw.hasSub_iff.mpr ⟨q, Tree.mem_keys.mp hq, habove⟩
      rw [hd.noSub p hp] at hsub
      cases hsub
    · exact hw.prefixFree p q (Tree.mem_keys.mp hp) (Tree.mem_keys.mp hq) habove

end Dumpable

/-- Whether all values can be read back can be checked key by key. -/
theorem Valid.dumpable_iff (h : ctx.Valid) :
    ctx.Dumpable ↔ (∀ k ∈ ctx.tree.keys, Spelling.canonicalizePath k = .ok k) ∧
      (∀ n ∈ ctx.registry.names, ctx.tree.hasSub n = false) ∧
      (∀ k ∈ ctx.registry.names ++ ctx.tree.keys, Plain (ctx.knownText k)) ∧
      ∀ n ∈ ctx.registry.names, ctx.tree.hasKey n = true → '\n' ∉ (ctx.defaultText n).toList := by
  simp only [Spelling.canonicalizePath_eq_self_iff]
  constructor
  · intro hd
    exact ⟨hd.canonical, hd.noSub, fun k hk => hd.plain h (h.mem_knownKeys.mpr (List.mem_append.mp hk)), hd.defaultOnLine⟩
  · rintro ⟨hcanonical, hsub, hplain, hdefault⟩
    refine ⟨hcanonical, hsub, ?_, ?_, hdefault⟩
    · intro n hn text htext
      obtain ⟨r, hr⟩ := Registry.exists_find?_iff.mpr hn
      rw [(effectiveText_of_find? hr).1] at htext
      exact Except.ok.inj htext ▸ hplain n (List.mem_append_left _ hn)
    · intro k v hv _
      have htext : v = ctx.knownText k := by simp [knownText, hv]
      exact htext ▸ hplain k (List.mem_append_right _ (h.tree.wellFormed.mem_keys_of_get? hv))

end

end Context

namespace Report

/-! ## Rows and sections -/

/-- A setting with the default that it replaces in a comment. -/
def settingRow (key : String) (setting : Setting) : String :=
  pair key setting.value ++ " # default: \"" ++ setting.default ++ "\""

theorem settingLine_eq (key : String) (setting : Setting) : settingLine key setting = settingRow key setting ++ "\n" := by
  have h : settingLine key setting = pair key setting.value ++ " # default: \"" ++ setting.default ++ "\"\n" := rfl
  apply String.toList_injective
  simp [h, settingRow]

/-- A setting is a line that assigns its value: the default is in a comment. -/
theorem settingRow_spec {key : String} (hk : IsCanonicalPath key) {setting : Setting} (hv : Plain setting.value)
    (hdefault : '\n' ∉ setting.default.toList) :
    '\n' ∉ (settingRow key setting).toList ∧ LineForm (settingRow key setting).toList (some (key, setting.value)) := by
  have hrow : (settingRow key setting).toList =
      (pair key setting.value).toList ++ [' '] ++ ('#' :: (" default: \"" ++ setting.default ++ "\"").toList) := by
    simp [settingRow]
  refine ⟨?_, ?_⟩
  · rw [hrow]
    simp [newline_not_mem_pair hk hv, hdefault]
  · rw [hrow]
    exact lineForm_pair hk hv (by simp [Blanks]; decide) (.inr ⟨'#', _, rfl, .inl rfl⟩)

/-- A section assigns what its rows do: its header is a comment. -/
theorem wholeLines_titled {header : String} (hheader : '\n' ∉ header.toList) {row : String → String}
    {entry : String → String × String} {keys : List String}
    (h : ∀ k ∈ keys, '\n' ∉ (row k).toList ∧ LineForm (row k).toList (some (entry k))) :
    WholeLines (titled header keys (String.join (keys.map fun k => row k ++ "\n"))) (keys.map entry) := by
  unfold titled
  split
  · rename_i hnil
    obtain rfl : keys = [] := by simpa using hnil
    exact wholeLines_empty
  · have hline : LineForm ("# [" ++ header ++ "]").toList none := by
      have := LineForm.remark blanks_nil (.inr ⟨'#', (" [" ++ header ++ "]").toList, rfl, .inl rfl⟩)
      simpa using this
    have hrow : "# [" ++ header ++ "]\n" = "# [" ++ header ++ "]" ++ "\n" := by
      apply String.toList_injective
      simp
    change WholeLines ("# [" ++ header ++ "]\n" ++ String.join (keys.map fun k => row k ++ "\n")) _
    rw [hrow]
    exact (wholeLines_row (by simp [hheader]) hline).append (wholeLines_rows h)

/-! ## All values -/

/-- The lines of registered names show the texts that are known of them. -/
theorem listing_eq (ctx : Context) {names : List String} (defaults : Bool) (h : ∀ n ∈ names, n ∈ ctx.registry.names) :
    listing ctx names defaults = .ok (String.join (names.map fun n =>
      if defaults then settingLine n ⟨ctx.knownText n, ctx.defaultText n⟩ else pairLine n (ctx.knownText n))) := by
  refine bind_eq_ok.mpr ⟨_, ?_, rfl⟩
  rw [mapM_eq_ok, List.forall₂_map_right_iff, List.forall₂_same]
  intro n hn
  obtain ⟨r, hr⟩ := Registry.exists_find?_iff.mpr (h n hn)
  rw [(Context.effectiveText_of_find? hr).1]
  rfl

/-- The report of all values has a row for each known key. -/
theorem values_eq {ctx : Context} (h : ctx.Valid) :
    values ctx = .ok
      (titled "known parameters which were specified at run-time" ctx.partition.runtime
          (String.join (ctx.partition.runtime.map fun k => settingLine k ⟨ctx.knownText k, ctx.defaultText k⟩)) ++
        titled "parameters which were specified at compile-time" ctx.partition.compileTime
          (String.join (ctx.partition.compileTime.map fun k => pairLine k (ctx.knownText k))) ++
        titled "unused run-time specified parameters" ctx.partition.unknown
          (String.join (ctx.partition.unknown.map fun k => pairLine k (ctx.knownText k)))) := by
  have hruntime := listing_eq ctx true fun n hn => (h.mem_runtime.mp hn).1
  have hcompileTime := listing_eq ctx false fun n hn => (Context.mem_compileTime.mp hn).1
  have hunknown : unusedListing ctx.tree ctx.partition.unknown =
      String.join (ctx.partition.unknown.map fun k => pairLine k (ctx.knownText k)) := by
    rw [unusedListing]
    congr 1
    refine List.map_congr_left fun k hk => ?_
    have hkey : ctx.tree.hasKey k = true :=
      h.tree.wellFormed.mem_keys_iff.mp (ctx.perm_keys.mem_iff.mp (List.mem_append_right _ hk))
    rw [← (Context.knownText_of_hasKey hkey).1, Context.withValue]
  rw [values, hruntime, hcompileTime, unused, hunknown]
  rfl

/-- The report of all values is whole lines that assign every known key its text. -/
theorem wholeLines_values {ctx : Context} (h : ctx.Valid) (hd : ctx.Dumpable) :
    ∃ report, values ctx = .ok report ∧ WholeLines report (ctx.knownKeys.map fun k => (k, ctx.knownText k)) := by
  have hpair : ∀ k ∈ ctx.knownKeys, '\n' ∉ (pair k (ctx.knownText k)).toList ∧
      LineForm (pair k (ctx.knownText k)).toList (some (k, ctx.knownText k)) := by
    intro k hk
    have hcanonical := hd.isCanonicalPath h hk
    exact ⟨newline_not_mem_pair hcanonical (hd.plain h hk), lineForm_pair_self hcanonical (hd.plain h hk)⟩
  refine ⟨_, values_eq h, ?_⟩
  rw [Context.knownKeys, List.map_append, List.map_append]
  simp only [settingLine_eq, pairLine]
  refine ((wholeLines_titled (by decide) ?_).append (wholeLines_titled (by decide) ?_)).append
    (wholeLines_titled (by decide) ?_)
  · intro k hk
    obtain ⟨hn, hkey⟩ := h.mem_runtime.mp hk
    have hknown : k ∈ ctx.knownKeys := List.mem_append_left _ (List.mem_append_left _ hk)
    exact settingRow_spec (hd.isCanonicalPath h hknown) (hd.plain h hknown) (hd.defaultOnLine k hn hkey)
  · exact fun k hk => hpair k (List.mem_append_left _ (List.mem_append_right _ hk))
  · exact fun k hk => hpair k (List.mem_append_right _ hk)

/-- The report of all values is read into an empty tree to its end. The tree then has the known keys, each with its text. -/
theorem read_values_eq {ctx : Context} (h : ctx.Valid) (hd : ctx.Dumpable) (source : String) (overwrite : Bool) :
    ∃ report u, values ctx = .ok report ∧ Document.read .empty report source overwrite = (u, none) ∧
      (∀ k, k ∈ u.keys ↔ k ∈ ctx.knownKeys) ∧ ∀ k ∈ ctx.knownKeys, u.get? k = some (ctx.knownText k) := by
  obtain ⟨report, hreport, hlines⟩ := wholeLines_values h hd
  have hkeys : (ctx.knownKeys.map fun k => (k, ctx.knownText k)).map (·.1) = ctx.knownKeys := by
    simp [Function.comp_def]
  have hnodup : ((ctx.knownKeys.map fun k => (k, ctx.knownText k)).map (·.1)).Nodup := by
    rw [hkeys]
    exact h.nodup_knownKeys
  have ok : (Document.writeEntries overwrite .empty (ctx.knownKeys.map fun k => (k, ctx.knownText k))).2 = none := by
    rw [Document.writeEntries_eq_none_iff Tree.wellFormed_empty, hkeys]
    simpa only [Tree.not_isLeaf_empty, false_or] using hd.prefixFree h
  obtain ⟨u, hwrite⟩ : ∃ u, Document.writeEntries overwrite .empty (ctx.knownKeys.map fun k => (k, ctx.knownText k)) =
      (u, none) := ⟨_, Prod.ext rfl ok⟩
  have hread : Document.read .empty report source overwrite = (u, none) :=
    Document.read_eq_iff.mpr ⟨_, hlines.assigns, hnodup, hwrite⟩
  have hget : ∀ k, u.get? k = (ctx.knownKeys.map fun k => (k, ctx.knownText k)).lookup k := by
    intro k
    have := Document.get?_writeEntries hnodup ok k
    rw [hwrite] at this
    simpa using this
  have hw : u.WellFormed := by
    have hafter := (Context.Reachable.empty.valid.after (.readDocument report source overwrite)).tree.wellFormed
    rwa [Context.after, Context.empty, hread] at hafter
  refine ⟨report, u, hreport, hread, fun k => ?_, fun k hk => ?_⟩
  · rw [hw.mem_keys_iff, Tree.hasKey, hget, Option.isSome_iff_ne_none, ne_eq, lookup_eq_none_iff_not_mem, not_not,
      hkeys]
  · rw [hget, lookup_eq_some_iff_mem hnodup]
    exact List.mem_map.mpr ⟨k, hk, rfl⟩

/-- The report of all values of a reachable context is read into a fresh one to its end, if the keys are canonical, no name is that
of a sub-tree, and all texts are plain. The tree then has the registered names and the other keys as its leaves, each with the text
that it had. Hence when the same parameters are registered there, in any order, and registration is ended, each of them that had a
value has it again, if its declared default can be read. -/
theorem read_values {ctx : Context} (h : ctx.Reachable) (hd : ctx.Dumpable) (source : String) (overwrite : Bool) :
    ∃ report, values ctx = .ok report ∧
      let again := Context.empty.after (.readDocument report source overwrite)
      Document.read Context.empty.tree report source overwrite = (again.tree, none) ∧
        (∀ k, k ∈ again.tree.keys ↔ k ∈ ctx.registry.names ∨ k ∈ ctx.tree.keys ∧ k ∉ ctx.registry.names) ∧
        (∀ n ∈ ctx.registry.names, ∃ text, ctx.effectiveText n = .ok text ∧ again.tree.get? n = some text) ∧
        (∀ k ∈ ctx.tree.keys, k ∉ ctx.registry.names → again.tree.get? k = ctx.tree.get? k) ∧
        (∃ decls, Declares decls ctx.registry.records) ∧
        ∀ decls, Declares decls ctx.registry.records →
          ∀ ref r, ctx.registry.find? ref.name = some r →
            (∀ d ∈ decls, ∀ s, Record.ofDeclaration d.1 d.2 = .ok s → s.name = r.name → s.Accepts s.default) →
              ∀ checked v, ctx.get ref checked = .ok v →
                ∀ checked', ((again.registerAll decls).after .endRegistration).get ref checked' = .ok v := by
  have hv := h.valid
  obtain ⟨report, u, hreport, hread, hkeys, hknown⟩ := read_values_eq hv hd source overwrite
  have hnames : ∀ n ∈ ctx.registry.names, u.get? n = some (ctx.knownText n) :=
    fun n hn => hknown n (hv.mem_knownKeys.mpr (.inl hn))
  refine ⟨report, hreport, ?_⟩
  intro again
  have htree : again.tree = u := congrArg Prod.fst hread
  rw [htree]
  refine ⟨hread, fun k => ?_, fun n hn => ?_, fun k hk _ => ?_, h.exists_declares, ?_⟩
  · rw [hkeys, hv.mem_knownKeys]
    by_cases hn : k ∈ ctx.registry.names <;> simp [hn]
  · obtain ⟨r, hr⟩ := Option.isSome_iff_exists.mp (Registry.contains_iff.mpr hn)
    exact ⟨_, (Context.effectiveText_of_find? hr).1, hnames n hn⟩
  · rw [hknown k (hv.mem_knownKeys.mpr (.inr hk)), (Context.knownText_of_hasKey (hv.tree.wellFormed.mem_keys_iff.mp hk)).2]
  · intro decls hdecls ref r hr hdefault checked v hvalue checked'
    have hname := Registry.name_of_find? hr
    have htext : again.tree.get? r.name = some ((ctx.tree.get? r.name).getD r.default) := by
      have hmem : ref.name ∈ ctx.registry.names := List.mem_map.mpr ⟨r, Registry.mem_of_find? hr, hname⟩
      rw [htree, hname, ← (Context.effectiveText_of_find? hr).2]
      exact hnames _ hmem
    exact hv.get_redeclared hdecls rfl hr htext hdefault hvalue checked'

/-- A closed context with a parameter that is set, one that is not, and a key of a sub-tree; the parameters are registered again in
the other order. -/
theorem read_values_of_three_keys :
    let side : Declaration := ⟨"Side", none, ⟨some (.text "left"), none⟩, []⟩
    let verbose : Declaration := ⟨"Verbose", none, ⟨some (.bool false), none⟩, []⟩
    let closed := ((Context.empty.after (.register (.declared verbose) "Print more.")).after
      (.register (.declared side) "Which one.")).after .endRegistration
    let ctx := (closed.after (.write (·.set "Newton.Tolerance" "1e-8") (.set _ _))).after
      (.write (·.set "Side" "right #2") (.set _ _))
    ∃ report, values ctx = .ok report ∧
      let again := Context.empty.after (.readDocument report "case.ini" true)
      Document.read Context.empty.tree report "case.ini" true = (again.tree, none) ∧
        again.tree.get? "Newton.Tolerance" = ctx.tree.get? "Newton.Tolerance" ∧
        (∃ text, ctx.effectiveText "Verbose" = .ok text ∧ again.tree.get? "Verbose" = some text) ∧
        ((again.registerAll [(side, "Which one."), (verbose, "Print more.")]).after .endRegistration).get (.named "Side") true =
          .ok (.text "right #2") := by
  intro side verbose closed ctx
  have hreach : ctx.Reachable := ((((Context.Reachable.empty.after _).after _).after _).after _).after _
  have hrecords : ctx.registry.records =
      [⟨"Verbose", some .bool, "Print more.", "0", false⟩, ⟨"Side", some .text, "Which one.", "left", false⟩] := by
    decide +kernel
  have hdumpable : ctx.Dumpable := (Context.Valid.dumpable_iff hreach.valid).mpr (by decide +kernel)
  have hdecls : Declares [(side, "Which one."), (verbose, "Print more.")] ctx.registry.records := by
    rw [hrecords]
    constructor
    · intro r hr
      simp only [List.mem_cons, List.not_mem_nil, or_false] at hr
      rcases hr with rfl | rfl
      · exact ⟨(verbose, "Print more."), by simp, "0", rfl⟩
      · exact ⟨(side, "Which one."), by simp, "left", rfl⟩
    · intro d hd
      simp only [List.mem_cons, List.not_mem_nil, or_false] at hd
      rcases hd with rfl | rfl
      · exact ⟨_, List.mem_cons_of_mem _ (List.mem_singleton_self _), "left", rfl⟩
      · exact ⟨_, List.mem_cons_self .., "0", rfl⟩
  obtain ⟨report, hreport, hread, -, hnames, hothers, -, hvalues⟩ := read_values hreach hdumpable "case.ini" true
  refine ⟨report, hreport, hread, hothers _ (by decide +kernel) (by decide +kernel), hnames _ (by decide +kernel), ?_⟩
  have hside : ctx.registry.find? "Side" = some ⟨"Side", some .text, "Which one.", "left", false⟩ := by decide +kernel
  have htext : ctx.tree.get? "Side" = some "right #2" := by decide +kernel
  have hget : ctx.get (.named "Side") true = .ok (.text "right #2") := by
    have hvalue : Context.valueOf ctx.tree ⟨"Side", some .text, "Which one.", "left", false⟩ = .ok (.text "right #2") := by
      refine Context.valueOf_eq_ok_iff.mpr ⟨⟨_, rfl⟩, ?_⟩
      rw [htext]
      rfl
    have hclosed : ctx.registry.isOpen = false := by decide +kernel
    exact (@Context.get_of_find? ctx hclosed (.named "Side") _ hside true).trans (congrArg (Except.mapError Failure.read) hvalue)
  refine hvalues _ hdecls (.named "Side") _ hside ?_ true _ hget true
  intro d hd s hs _
  simp only [List.mem_cons, List.not_mem_nil, or_false] at hd
  rcases hd with rfl | rfl
  · obtain rfl : (⟨"Side", some .text, "Which one.", "left", false⟩ : Record) = s := Except.ok.inj hs
    exact ⟨_, rfl⟩
  · obtain rfl : (⟨"Verbose", some .bool, "Print more.", "0", false⟩ : Record) = s := Except.ok.inj hs
    exact ⟨_, rfl⟩

end Report

end RunParams

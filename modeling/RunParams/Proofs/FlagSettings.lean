import RunParams.Proofs.ArgumentRuns
import RunParams.Proofs.Closing
import RunParams.Proofs.TreeReplay

/-!
# Settings by flags

The flag of a parameter with an equals sign and a text behind it is an option that gives the parameter that text, whatever the
text is. Options of different parameters set all of them, and nothing else.
-/

namespace RunParams

namespace CommandLine

/-- The option that gives a parameter a text. -/
def flagOption (setting : String × String) : String :=
  Spelling.toFlag setting.1 ++ "=" ++ setting.2

/-- The settings of parameters, as the options for them make them. -/
def settingsTree (settings : List (String × String)) : Tree :=
  .leaves settings

/-- The option of a canonical name has the form of an option that gives the name the text. -/
theorem optionForm_flagOption {name : String} (h : Spelling.IsCanonical name) (value : String) :
    OptionForm (flagOption (name, value)) (name, value) := by
  obtain ⟨key, hkey, ⟨c, rfl, hc, hflag⟩ | hflag⟩ := h.toFlag
  · have hlist : flagOption (name, value) = "-" ++ String.ofList [c] ++ "=" ++ value := by
      apply String.toList_injective
      simp [flagOption, hflag]
    rw [hlist]
    exact .short hkey (by simp)
  · have hlist : flagOption (name, value) = "--" ++ key ++ "=" ++ value := by
      apply String.toList_injective
      simp [flagOption, hflag]
    rw [hlist]
    exact .long hkey

example : flagOption ("MaxIterations", "20") = "--max-iterations=20" := by decide +kernel

/-! ## Trees of settings -/

/-- The value at a name is that of its setting. -/
theorem settingsTree_get? (settings : List (String × String)) {name : String} (hd : DotFree name) :
    (settingsTree settings).get? name = settings.lookup name := by
  rw [Tree.get?, ofString_of_dotFree hd]
  rfl

theorem settingsTree_keys (settings : List (String × String)) : (settingsTree settings).keys = settings.map (·.1) := by
  simp [settingsTree, Tree.keys, Tree.flatten, Tree.subKeys]

end CommandLine

open CommandLine

/-- Reading the options of canonical names into a context with an empty tree leaves their settings in the tree, and answers
nothing. -/
theorem Context.readCommandLine_flagOptions {ctx : Context} (htree : ctx.tree = .empty) {settings : List (String × String)}
    (hcanonical : ∀ s ∈ settings, Spelling.IsCanonical s.1) (hnodup : (settings.map (·.1)).Nodup) (preamble : String)
    (width : Int) :
    ctx.readCommandLine (settings.map flagOption) preamble width noPositionals () =
      ⟨{ ctx with tree := settingsTree settings }, (), .ok "", "", ""⟩ := by
  have hforms : List.Forall₂ OptionForm (settings.map flagOption) settings := by
    rw [List.forall₂_map_left_iff, List.forall₂_same]
    exact fun s hs => optionForm_flagOption (hcanonical s hs) s.2
  have hdotFree : ∀ s ∈ settings, DotFree s.1 := fun s hs => (hcanonical s hs).dotFree
  have hwrites : Document.writeEntries true ctx.tree settings = (settingsTree settings, none) := by
    rw [htree]
    exact @Tree.writeEntries_leaves [] _ hdotFree hnodup
  exact readCommandLine_of_forms hforms hnodup hwrites preamble width

/-- Once registration has ended well, options for registered parameters over an empty tree are all taken: each parameter that is
set has its text, read as a value of its type, every other one its default, and the settings are the run-time part of all known
keys, in their order. -/
theorem Context.flags_set {c₀ c : Context} (hreach : c₀.Reachable) (hend : c₀.endRegistration.2 = none)
    (hrun : c₀.endRegistration.1.Continues c) (htree : c.tree = .empty) (settings : List (String × String))
    (hnodup : (settings.map (·.1)).Nodup) (hreg : ∀ n ∈ settings.map (·.1), c.registry.contains n = true)
    (preamble : String) (width : Int) :
    let result := c.readCommandLine (settings.map fun s => Spelling.toFlag s.1 ++ "=" ++ s.2) preamble width noPositionals ()
    result.answer = .ok "" ∧ result.out = "" ∧ result.err = "" ∧
      (∀ ref r, c.registry.find? ref.name = some r → ∀ checked,
        result.context.isSet ref checked = .ok (decide (ref.name ∈ settings.map (·.1))) ∧
        result.context.get ref checked =
          (coerce r.type ((settings.lookup ref.name).getD r.default) ref.name).mapError .read) ∧
      result.context.partition.runtime = settings.map (·.1) := by
  have hopen : c₀.registry.isOpen = true := by
    by_contra ho
    rw [endRegistration, Registry.close_eq, if_neg ho] at hend
    cases hend
  have hended := hreach.valid.ended hend hopen
  have hvalid := hrun.valid (hreach.valid.after .endRegistration)
  obtain ⟨hc, -⟩ := hrun.ended (hreach.valid.after .endRegistration) hended
  have hcanonical : ∀ n ∈ c.registry.names, Spelling.IsCanonical n :=
    fun n hn => Spelling.canonicalize_eq_self_iff.mp (hvalid.registry.canonical n hn)
  have hsettings : ∀ s ∈ settings, Spelling.IsCanonical s.1 :=
    fun s hs => hcanonical s.1 (Registry.contains_iff.mp (hreg s.1 (List.mem_map.mpr ⟨s, hs, rfl⟩)))
  intro result
  rw [show result = _ from readCommandLine_flagOptions htree hsettings hnodup preamble width]
  refine ⟨rfl, rfl, rfl, ?_, ?_⟩
  · intro ref r hr checked
    have hended' : Ended ⟨c.registry, settingsTree settings⟩ := ⟨hc.closed, hc.readable⟩
    have hget : (settingsTree settings).get? ref.name = settings.lookup ref.name := by
      refine settingsTree_get? settings (hcanonical _ ?_).dotFree
      exact List.mem_map.mpr ⟨r, Registry.mem_of_find? hr, Registry.name_of_find? hr⟩
    refine ⟨?_, ?_⟩
    · refine (isSet_of_find? hended'.closed hr checked).trans (congrArg Except.ok ?_)
      rw [Tree.hasKey, hget, Bool.eq_iff_iff, decide_eq_true_iff, Option.isSome_iff_ne_none, ne_eq,
        lookup_eq_none_iff_not_mem, not_not]
    · rw [← hget]
      exact hended'.get_eq hr checked
  · rw [partition]
    dsimp only
    rw [settingsTree_keys, List.filter_eq_self.mpr hreg]

/-- Two registered parameters that are set in the other order, one of them with a name of one letter. -/
theorem Context.flags_set_of_two :
    let weight : Declaration := ⟨"UpwindWeight", none, ⟨some (.bool true), none⟩, []⟩
    let side : Declaration := ⟨"X", none, ⟨some (.text "left"), none⟩, []⟩
    let registered := (empty.after (.register (.declared weight) "The weight.")).after (.register (.declared side) "The side.")
    let result := registered.endRegistration.1.readCommandLine ["-x=a=b", "--upwind-weight=0"] "" 80 noPositionals ()
    registered.endRegistration.2 = none ∧ result.answer = .ok "" ∧
      result.context.partition.runtime = ["X", "UpwindWeight"] := by
  intro weight side registered result
  have hreach : registered.Reachable := (Reachable.empty.after _).after _
  have hend : registered.endRegistration.2 = none := by decide +kernel
  have htree : registered.endRegistration.1.tree = .empty := by decide +kernel
  have hset := flags_set hreach hend .refl htree [("X", "a=b"), ("UpwindWeight", "0")] (by decide) (by decide +kernel) "" 80
  exact ⟨hend, hset.1, hset.2.2.2.2⟩

end RunParams

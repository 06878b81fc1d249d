import RunParams.Console.Markup
import RunParams.Proofs.ArgumentShapes
import RunParams.Proofs.Flags
import RunParams.Similarity
import RunParams.Tool.Run

/-!
# Converting there and back

The tool writes the flags of names, and the names of flags. The flags look like options, and two of them are the options that ask
for help. Names and flags are converted there and back where neither of the two is among them; otherwise the tool helps instead.
-/

namespace RunParams.Tool

open Spelling (IsCanonical)

/-- Texts, each on a line of its own. -/
def onLines (texts : List String) : String :=
  String.join (texts.map (· ++ "\n"))

theorem onLines_cons (text : String) (texts : List String) : onLines (text :: texts) = text ++ "\n" ++ onLines texts := by
  rw [onLines, List.map_cons, String.join_cons]
  rfl

/-- Texts that can all be converted are written converted, in their order. -/
theorem convert_eq {f : String → Except NameError String} {texts converted : List String}
    (h : List.Forall₂ (fun text out => f text = .ok out) texts converted) (r : Console.Renderer)
    (p : Console.Printer) : convert r f p texts = ⟨.finished 0, p.written ++ onLines converted, "", none⟩ := by
  induction h generalizing p with
  | nil => simp [convert, onLines]
  | @cons text out texts converted hout _ ih =>
    rw [convert, hout]
    dsimp only
    rw [ih, onLines_cons, Console.Printer.write, String.append_assoc]

/-! ## Commands -/

/-- The tool takes all arguments behind the name of a command to that command. -/
theorem topGrammar_read {command : String} (h : command.toList.head? ≠ some '-') (arguments : List String) :
    topGrammar.read (command :: arguments) = .ok ⟨[], some (command :: arguments), []⟩ := by
  have hne : command ≠ "--" := by
    rintro rfl
    exact h rfl
  obtain ⟨shaped, hshaped, hmap⟩ := @Grammar.exists_shapes Setting topGrammar (Nat.le_refl 1) arguments
  rw [Grammar.read, Grammar.shapes, if_neg hne, Grammar.shape_of_operand h, hshaped]
  simp only [Except.mapError, bind, Except.bind, pure, Except.pure]
  rw [Grammar.readFrom]
  simp [topGrammar, hmap]

/-- Names, which are no options, are the operands of the command that converts them. -/
theorem flagGrammar_read {names : List String} (hne : names ≠ []) (h : ∀ n ∈ names, n.toList.head? ≠ some '-') :
    flagGrammar.read names = .ok ⟨[], some names, []⟩ := by
  obtain ⟨n, ns, rfl⟩ := List.exists_cons_of_ne_nil hne
  have hdashes : "--" ∉ n :: ns := fun hmem => h _ hmem rfl
  have hread := @Grammar.readFrom_operands Setting flagGrammar (by decide) ⟨[], none, []⟩ [] (n :: ns)
  have hend : flagGrammar.endRun ⟨[], none, []⟩ ((n :: ns).map (·, .operand)) = ⟨[], some (n :: ns), []⟩ := by
    simp [Grammar.endRun, flagGrammar, commandGrammar, Function.comp_def, List.erase_of_not_mem hdashes]
  rw [List.nil_append, hend] at hread
  rw [Grammar.read, Grammar.shapes_of_operands h]
  simp only [Except.mapError, bind, Except.bind, hread]
  rfl

/-! ## Flags as options -/

/-- The spellings of the option that asks for help. -/
def helpSpellings : List String := ["-h", "--help"]

/-- What the command that converts flags takes a flag for: for the option that asks for help, or for an unknown one. -/
def flagShape (flag : String) : Shape Setting :=
  if flag = "-h" then .option ⟨some helpFlag, true, none⟩
  else if flag = "--help" then .option ⟨some helpFlag, false, none⟩
  else .option ⟨none, false, none⟩

theorem digitValue?_of_isAlpha {c : Char} (h : c.isAlpha = true) : Text.digitValue? c = none := by
  have hlt := toNat_lt_of_isAlphanum (isAlphanum_of_isAlpha h)
  have hdigit : c.isDigit = false := by
    revert h
    exact ascii_cases (P := fun c => c.isAlpha = true → c.isDigit = false) (by decide) hlt
  rw [Text.digitValue?, if_pos hlt, hdigit]
  rfl

/-- Two dashes are no flag. -/
theorem toFlag_ne_dashes {name : String} (h : IsCanonical name) : Spelling.toFlag name ≠ "--" := by
  intro e
  have hname := h.ofFlag_toFlag
  rw [e] at hname
  cases hname

/-- The flag of a canonical name has no equals sign and no blank. -/
theorem ne_of_mem_toFlag {name : String} (h : IsCanonical name) {c : Char} (hc : c ∈ (Spelling.toFlag name).toList) :
    c ≠ '=' ∧ c ≠ ' ' := by
  have hin := h.inFlag c hc
  constructor <;> rintro rfl <;> exact absurd hin (by unfold Spelling.InFlag; decide)

/-- The flag of a canonical name can be no option but the one for help. -/
theorem candidates_toFlag {name : String} (h : IsCanonical name) (hhelp : Spelling.toFlag name ≠ "-h") :
    nameGrammar.candidates (Spelling.toFlag name).toList = [] ∧
      Grammar.isNegativeNumber (Spelling.toFlag name).toList = false := by
  obtain ⟨key, -, ⟨c, -, hc, hflag⟩ | hflag⟩ := h.toFlag
  · obtain ⟨hdash, hdot, -⟩ := of_isAlphanum (isAlphanum_of_isAlpha hc)
    have hletter : c ≠ 'h' := by
      rintro rfl
      exact hhelp hflag
    rw [hflag, String.toList_ofList]
    refine ⟨?_, Grammar.isNegativeNumber_eq_false (digitValue?_of_isAlpha hc) hdot _⟩
    unfold Grammar.candidates
    split
    · rename_i e
      exact absurd (List.cons.inj (List.cons.inj e).2).1 hdash
    · rename_i e
      obtain rfl := (List.cons.inj (List.cons.inj e).2).1
      simp [nameGrammar, commandGrammar, helpFlag, Ne.symm hletter]
    · rfl
  · have hlist : (Spelling.toFlag name).toList = '-' :: '-' :: key.toList := by simp [hflag]
    rw [hlist]
    exact ⟨rfl, Grammar.isNegativeNumber_eq_false (by decide) (by decide) _⟩

/-- The command that converts flags takes the flag of a canonical name for the option for help or for an unknown one. -/
theorem shape_toFlag {name : String} (h : IsCanonical name) :
    nameGrammar.shape (Spelling.toFlag name) = .ok (flagShape (Spelling.toFlag name)) := by
  by_cases hshort : Spelling.toFlag name = "-h"
  · rw [hshort]
    rfl
  · by_cases hlong : Spelling.toFlag name = "--help"
    · rw [hlong]
      rfl
    · obtain ⟨hcandidates, hnumber⟩ := candidates_toFlag h hshort
      obtain ⟨d, s, hlist⟩ : ∃ d s, (Spelling.toFlag name).toList = '-' :: d :: s := by
        obtain ⟨key, hkey, ⟨c, -, -, hflag⟩ | hflag⟩ := h.toFlag
        · exact ⟨c, [], by simp [hflag]⟩
        · exact ⟨'-', key.toList, by simp [hflag]⟩
      have hspelling : nameGrammar.withSpelling? (Spelling.toFlag name).toList = none := by
        have hshort' : helpFlag.short.toList ≠ (Spelling.toFlag name).toList := fun e => hshort (String.toList_injective e.symm)
        have hlong' : helpFlag.long.toList ≠ (Spelling.toFlag name).toList := fun e => hlong (String.toList_injective e.symm)
        rw [Grammar.withSpelling?, List.findSome?_eq_none_iff]
        intro f hf
        obtain rfl : f = helpFlag := List.mem_singleton.mp hf
        rw [if_neg hshort', if_neg hlong']
      rw [flagShape, if_neg hshort, if_neg hlong]
      exact Grammar.shape_of_unknown (by rw [hlist]; rfl) (by rw [hlist]; simp) hspelling
        (fun hc => (ne_of_mem_toFlag h hc).1 rfl) hcandidates hnumber fun hc => (ne_of_mem_toFlag h hc).2 rfl

/-- Flags that do not ask for help are all left over. -/
theorem readFrom_of_not_help {flags : List String} (h : ∀ f ∈ flags, f ∉ helpSpellings) (r : Reading Setting) :
    nameGrammar.readFrom r [] false (flags.map fun f => (f, flagShape f)) =
      .ok (nameGrammar.endRun { r with extras := r.extras ++ flags } []) := by
  induction flags generalizing r with
  | nil => rw [List.map_nil, Grammar.readFrom, List.append_nil]
  | cons f flags ih =>
    obtain ⟨hf, hflags⟩ := List.forall_mem_cons.mp h
    have hshape : flagShape f = .option ⟨none, false, none⟩ := by
      rw [helpSpellings, List.mem_cons, List.mem_singleton, not_or] at hf
      rw [flagShape, if_neg hf.1, if_neg hf.2]
    rw [List.map_cons, hshape, Grammar.readFrom_unknown, ih hflags, List.append_assoc, List.singleton_append]

/-- A flag that asks for help is not passed over. -/
theorem readFrom_of_help {flags : List String} (h : ∃ f ∈ flags, f ∈ helpSpellings) (r : Reading Setting) :
    nameGrammar.readFrom r [] false (flags.map fun f => (f, flagShape f)) = .error .help := by
  induction flags generalizing r with
  | nil => simp at h
  | cons f flags ih =>
    rw [List.map_cons]
    by_cases hshort : f = "-h"
    · rw [flagShape, if_pos hshort, Grammar.readFrom_help rfl rfl]
    · by_cases hlong : f = "--help"
      · rw [flagShape, if_neg hshort, if_pos hlong, Grammar.readFrom_help rfl rfl]
      · have hflags : ∃ f ∈ flags, f ∈ helpSpellings := by simpa [helpSpellings, hshort, hlong] using h
        rw [flagShape, if_neg hshort, if_neg hlong, Grammar.readFrom_unknown]
        exact ih hflags _

/-! ## Requests -/

/-- The flag of a canonical name asks for help only where the name is one of two. -/
theorem toFlag_mem_helpSpellings_iff {name : String} (h : IsCanonical name) :
    Spelling.toFlag name ∈ helpSpellings ↔ name = "H" ∨ name = "Help" := by
  have hname := h.ofFlag_toFlag
  rw [helpSpellings, List.mem_cons, List.mem_singleton]
  constructor
  · rintro (e | e)
    · rw [e] at hname
      exact .inl (Except.ok.inj hname).symm
    · rw [e] at hname
      exact .inr (Except.ok.inj hname).symm
  · rintro (rfl | rfl)
    · exact .inl (by decide +kernel)
    · exact .inr (by decide +kernel)

section

variable {names : List String} (h : ∀ n ∈ names, IsCanonical n)
include h

/-- What the command that converts flags takes flags of canonical names for. -/
theorem shapes_flags :
    nameGrammar.shapes (names.map Spelling.toFlag) = .ok ((names.map Spelling.toFlag).map fun f => (f, flagShape f)) := by
  induction names with
  | nil => rfl
  | cons n names ih =>
    obtain ⟨hn, hnames⟩ := List.forall_mem_cons.mp h
    rw [List.map_cons, Grammar.shapes, if_neg (toFlag_ne_dashes hn), shape_toFlag hn, ih hnames]
    rfl

theorem exists_mem_helpSpellings_iff :
    (∃ f ∈ names.map Spelling.toFlag, f ∈ helpSpellings) ↔ "H" ∈ names ∨ "Help" ∈ names := by
  constructor
  · rintro ⟨f, hf, hflag⟩
    obtain ⟨n, hn, rfl⟩ := List.mem_map.mp hf
    obtain rfl | rfl := (toFlag_mem_helpSpellings_iff (h n hn)).mp hflag
    · exact .inl hn
    · exact .inr hn
  · rintro (hn | hn)
    · exact ⟨_, List.mem_map_of_mem hn, (toFlag_mem_helpSpellings_iff (h _ hn)).mpr (.inl rfl)⟩
    · exact ⟨_, List.mem_map_of_mem hn, (toFlag_mem_helpSpellings_iff (h _ hn)).mpr (.inr rfl)⟩

/-- The command that converts flags finds no operands among them, and nothing wrong unless one of them asks for help. -/
theorem nameGrammar_read :
    nameGrammar.read (names.map Spelling.toFlag) =
      if "H" ∈ names ∨ "Help" ∈ names then .error .help else .ok ⟨[], some [], names.map Spelling.toFlag⟩ := by
  rw [Grammar.read, shapes_flags h]
  split
  · rename_i hhelp
    have hread := readFrom_of_help ((exists_mem_helpSpellings_iff h).mpr hhelp) ⟨[], none, []⟩
    simp only [Except.mapError, bind, Except.bind, hread]
  · rename_i hhelp
    have hnone : ∀ f ∈ names.map Spelling.toFlag, f ∉ helpSpellings := fun f hf hspelling =>
      hhelp ((exists_mem_helpSpellings_iff h).mp ⟨f, hf, hspelling⟩)
    have hread := readFrom_of_not_help hnone ⟨[], none, []⟩
    simp only [Except.mapError, bind, Except.bind, hread]
    rfl

/-- The request to convert canonical names is understood. -/
theorem request_flag (hne : names ≠ []) : request ("flag" :: names) = .ok (.flag names) := by
  have hnames : ∀ n ∈ names, n.toList.head? ≠ some '-' := by
    intro n hn
    obtain ⟨c, s, hlist, hc, -⟩ := h n hn
    rw [hlist, List.head?_cons]
    rintro e
    obtain rfl := Option.some.inj e
    cases hc
  have htop := @topGrammar_read "flag" (by decide) names
  simp [request, readWith, htop, flagGrammar_read hne hnames, refuseExtras, Except.mapError, bind, Except.bind, pure, Except.pure]

/-- The request to convert the flags of canonical names is understood unless one of them asks for help. -/
theorem request_name (hne : names ≠ []) :
    request ("name" :: names.map Spelling.toFlag) =
      if "H" ∈ names ∨ "Help" ∈ names then .error .help else .ok (.name (names.map Spelling.toFlag)) := by
  have htop := @topGrammar_read "name" (by decide) (names.map Spelling.toFlag)
  have hflags : (names.map Spelling.toFlag).filter (· != "--") = names.map Spelling.toFlag := by
    rw [List.filter_eq_self]
    intro f hf
    obtain ⟨n, hn, rfl⟩ := List.mem_map.mp hf
    simpa using toFlag_ne_dashes (h n hn)
  have hdrop : (("name" :: names.map Spelling.toFlag).dropWhile (· != "name")).drop 1 = names.map Spelling.toFlag := by
    simp
  have hsome : (names.map Spelling.toFlag).isEmpty = false := by simpa using hne
  rw [request, readWith, htop]
  simp only [Except.mapError, bind, Except.bind]
  rw [if_neg (by decide), if_neg (by decide), if_pos trivial, readWith, nameGrammar_read h, hdrop, hflags, hsome]
  by_cases hhelp : "H" ∈ names ∨ "Help" ∈ names
  · rw [if_pos hhelp, if_pos hhelp]
    rfl
  · rw [if_neg hhelp, if_neg hhelp]
    rfl

/-- Flags of canonical names are converted back to the names. -/
theorem forall₂_nameOfFlag : List.Forall₂ (fun flag n => nameOfFlag flag = .ok n) (names.map Spelling.toFlag) names := by
  rw [List.forall₂_map_left_iff, List.forall₂_same]
  intro n hn
  have hkeep : (Spelling.toFlag n).toList.takeWhile (· != '=') = (Spelling.toFlag n).toList := by
    rw [List.takeWhile_eq_self_iff]
    intro c hc
    simpa using (ne_of_mem_toFlag (h n hn) hc).1
  rw [nameOfFlag, hkeep, String.ofList_toList]
  exact (h n hn).ofFlag_toFlag

/-- Canonical names are converted to their flags. -/
theorem forall₂_flagOfKey : List.Forall₂ (fun n flag => flagOfKey n = .ok flag) names (names.map Spelling.toFlag) := by
  rw [List.forall₂_map_right_iff, List.forall₂_same]
  intro n hn
  rw [flagOfKey, Spelling.canonicalize_eq_self_iff.mpr (h n hn)]
  rfl

end

/-- The first text that is written is not the first line of a help. -/
theorem helpText_ne_onLines {names : List String} (hne : names ≠ []) (h : ∀ n ∈ names, IsCanonical n) :
    helpText ≠ onLines names := by
  obtain ⟨n, names, rfl⟩ := List.exists_cons_of_ne_nil hne
  obtain ⟨c, s, hlist, hc, -⟩ := h n List.mem_cons_self
  intro e
  have hhead := congrArg (fun text => text.toList.head?) e
  have hhelp : helpText.toList.head? = some 'u' := by decide +kernel
  rw [hhelp, onLines_cons, String.toList_append, String.toList_append, hlist] at hhead
  obtain rfl := Option.some.inj hhead
  cases hc

/-- The tool writes the flags of canonical names. It writes the names of these flags again unless there are those of `H` or `Help`
among them, for which it ends well too, but shows a help and writes no names. -/
theorem conversions_invert (around : Surroundings) {names : List String} (hne : names ≠ []) (h : ∀ n ∈ names, IsCanonical n) :
    run around ("flag" :: names) = ⟨.finished 0, onLines (names.map Spelling.toFlag), "", none⟩ ∧
      ("H" ∉ names ∧ "Help" ∉ names →
        run around ("name" :: names.map Spelling.toFlag) = ⟨.finished 0, onLines names, "", none⟩) ∧
      ("H" ∈ names ∨ "Help" ∈ names → (run around ("name" :: names.map Spelling.toFlag)).ending = .refused .help ∧
        (run around ("name" :: names.map Spelling.toFlag)).out ≠ onLines names) ∧
      (run around ("name" :: names.map Spelling.toFlag)).ending.code = 0 := by
  have hname := request_name h hne
  have hgood (hhelp : ¬("H" ∈ names ∨ "Help" ∈ names)) :
      run around ("name" :: names.map Spelling.toFlag) = ⟨.finished 0, onLines names, "", none⟩ := by
    rw [if_neg hhelp] at hname
    rw [run, hname]
    dsimp only [perform]
    rw [convert_eq (forall₂_nameOfFlag h), Console.Printer.empty, String.empty_append]
  have hbad (hhelp : "H" ∈ names ∨ "Help" ∈ names) :
      run around ("name" :: names.map Spelling.toFlag) = ⟨.refused .help, helpText, "", none⟩ := by
    rw [if_pos hhelp] at hname
    rw [run, hname]
  refine ⟨?_, fun hhelp => hgood (not_or.mpr hhelp), fun hhelp => ?_, ?_⟩
  · rw [run, request_flag h hne]
    dsimp only [perform]
    rw [convert_eq (forall₂_flagOfKey h), Console.Printer.empty, String.empty_append]
  · rw [hbad hhelp]
    exact ⟨rfl, helpText_ne_onLines hne h⟩
  · by_cases hhelp : "H" ∈ names ∨ "Help" ∈ names
    · rw [hbad hhelp]
      rfl
    · rw [hgood hhelp]
      rfl

/-- Surroundings without files, and with a console that reads markup. -/
def bare : Surroundings where
  read path := .error (.unread path .notFound)
  write _ := .ok ()
  console := Console.markup Console.numberPictures
  score := Similarity.scorer

/-- A name of two words, one of one letter, and the beginning of a name whose flag asks for help. -/
theorem conversions_invert_of_three :
    (run bare ["flag", "UpwindWeight", "X", "He"]).out = "--upwind-weight\n-x\n--he\n" ∧
      run bare ["name", "--upwind-weight", "-x", "--he"] = ⟨.finished 0, "UpwindWeight\nX\nHe\n", "", none⟩ := by
  have hcanonical : ∀ n ∈ ["UpwindWeight", "X", "He"], IsCanonical n := by
    have hname : ∀ n ∈ ["UpwindWeight", "X", "He"], Spelling.canonicalize true n = .ok n := by decide +kernel
    exact fun n hn => Spelling.canonicalize_eq_self_iff.mp (hname n hn)
  have hflags : ["UpwindWeight", "X", "He"].map Spelling.toFlag = ["--upwind-weight", "-x", "--he"] := by decide +kernel
  obtain ⟨hflag, hname, -⟩ := conversions_invert bare (List.cons_ne_nil _ _) hcanonical
  rw [hflags] at hflag hname
  refine ⟨?_, ?_⟩
  · rw [hflag]
    decide +kernel
  · rw [hname (by decide)]
    exact congrArg (Outcome.mk (.finished 0) · "" none) (by decide +kernel)

/-- The flags of `H` and of `Help` are not converted back. -/
theorem conversions_do_not_invert :
    (run bare ["flag", "H"]).out = "-h\n" ∧ (run bare ["name", "-h"]).ending = .refused .help ∧
      (run bare ["name", "-h"]).out ≠ "H\n" ∧ (run bare ["flag", "Help"]).out = "--help\n" ∧
      (run bare ["name", "--help"]).ending = .refused .help ∧ (run bare ["name", "--help"]).out ≠ "Help\n" := by
  decide +kernel

end RunParams.Tool

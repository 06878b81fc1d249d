import RunParams.Proofs.ArgumentRuns

/-!
# Errors of command lines

With a preamble, the message of a refusal or a duplicate is written to the error output, and one usage message behind it. Nothing
is written there for a key that spells no name, nor for a value that the tree refuses.
-/

namespace RunParams

/-! ## What is written -/

/-- The report of an error: its message, and the usage message. -/
def Context.reported (ctx : Context) (preamble error : String) (width : Int) : String :=
  error ++ "\n\n" ++ Usage.message ctx preamble "" false width

/-- The usage message with an error is its report, whatever the tree is. -/
theorem Context.message_eq_reported (ctx : Context) (t : Tree) (preamble : String) {error : String} (h : error ≠ "")
    (width : Int) : Usage.message { ctx with tree := t } preamble error false width = ctx.reported preamble error width := by
  have herror : error.isEmpty = false := by simpa using h
  simp [Usage.message, reported, herror, String.append_assoc]

theorem Context.reported_ne_empty (ctx : Context) (preamble error : String) (width : Int) :
    ctx.reported preamble error width ≠ "" := by
  simp [reported]

theorem illegalArgument_ne_empty (argument : String) : illegalArgument argument ≠ "" := by
  have h : illegalArgument argument = "Illegal parameter \"" ++ argument ++ "\"." := rfl
  rw [h]
  simp

theorem Refusal.message_ne_empty {r : Refusal} (h : ∀ reason, r = .positional reason → reason ≠ "") : r.message ≠ "" := by
  cases r with
  | positional reason => exact h reason rfl
  | noLetter position argument =>
    have hmessage : (noLetter position argument).message = "Parameter name of argument " ++ toString position ++ " ('" ++
      argument ++ "') is invalid because it does not start with a letter." := rfl
    rw [hmessage]
    simp
  | noValue name argument =>
    have hmessage : (noValue name argument).message =
      "Parameter '" ++ name ++ "' is missing a value. Please use " ++ argument ++ "=value." := rfl
    rw [hmessage]
    simp

theorem ArgumentError.duplicate_message_ne_empty (name : String) : (duplicate name).message ≠ "" := by
  have hmessage : (duplicate name).message =
    "Parameter '" ++ name ++ "' specified multiple times as a command line parameter" := rfl
  rw [hmessage]
  simp

namespace CommandLine

variable {σ : Type} {handler : PositionalHandler σ} {argv : List String}

/-! ## Where reading ends -/

/-- A refusal has a message. -/
theorem message_ne_empty_of_read {state : σ} {t : Tree} {st : ArgumentState σ} {r : Refusal}
    (h : read handler state t argv = (st, .refused r)) : r.message ≠ "" := by
  apply Refusal.message_ne_empty
  rintro reason rfl
  rw [read_eq_readRest] at h
  obtain ⟨pre, argument, post, d, e, -, -, hstop, -⟩ := exists_stop h nofun
  have hstep := advance_step handler argv d argument
  rw [hstop] at hstep
  cases hstep with
  | option _ _ hstep => cases hstep
  | refuse =>
    split
    · exact illegalArgument_ne_empty argument
    · rename_i hreply
      simpa using hreply

/-- What the reading of an argument fails at without a report: a key that spells no name, an option for the name of a sub-tree, and
a value of the handler's that the tree refuses. -/
inductive Unreported (handler : PositionalHandler σ) (argv : List String) (c : Cursor σ) (argument : String) :
    ArgumentError → Prop
  | badKey {key : String} {rest : List Char} {e : NameError} (h : c.taken = 0) (ho : isOption argument = true)
      (hform : KeyForm argument key rest) (hkey : Spelling.canonicalize true key = .error e) :
      Unreported handler argv c argument (.badKey e)
  | value {name value : String} (h : c.taken = 0) (hform : OptionForm argument (name, value)) (hnew : name ∉ c.state.seen)
      (hsub : c.state.tree.hasSub name = true) : Unreported handler argv c argument (.tree (.isSubTree name))
  | positional {e : TreeError} (h : c.taken = 0) (ho : isOption argument = false)
      (hwrites : (writeAll c.state.tree (replyAt handler argv c).writes).2 = some e) :
      Unreported handler argv c argument (.tree e)

/-- An argument fails without a report exactly when it fails and is no duplicate. -/
theorem unreported_iff {c : Cursor σ} {argument : String} {e : ArgumentError} :
    Unreported handler argv c argument e ↔
      (∃ d, advance handler argv c argument = (d, .failed e)) ∧ ∀ name, e ≠ .duplicate name := by
  constructor
  · intro h
    cases h with
    | badKey h ho hform hkey =>
      refine ⟨?_, by simp⟩
      simp [advance, h, ho, readOption_of_badKey _ _ hform hkey]
    | value h hform hnew hsub =>
      refine ⟨?_, by simp⟩
      have ho := hform.exists_body.1
      simp [advance, h, ho, readOption_of_blocked _ _ hform hnew hsub]
    | @positional e h ho hwrites =>
      refine ⟨?_, by simp⟩
      obtain ⟨t, hall⟩ : ∃ t, writeAll c.state.tree (replyAt handler argv c).writes = (t, some e) :=
        ⟨_, Prod.ext rfl hwrites⟩
      rw [replyAt] at hall
      simp [advance, h, ho, readPositional, hall]
  · rintro ⟨⟨d, hd⟩, hne⟩
    have hstep := advance_step handler argv c argument
    rw [hd] at hstep
    cases hstep with
    | option h ho hstep =>
      cases hstep with
      | badKey hform hkey => exact .badKey h ho hform hkey
      | duplicate => exact absurd rfl (hne _)
      | blocked hform hnew hsub => exact .value h hform hnew hsub
    | blocked h ho hwrites => exact .positional h ho (by rw [hwrites])

/-- Reading fails, and not for a duplicate, exactly when some argument fails without a report behind others that are accepted. -/
theorem read_failed_iff {state : σ} {t : Tree} {e : ArgumentError} :
    ((read handler state t argv).2 = .failed e ∧ ∀ name, e ≠ .duplicate name) ↔
      ∃ pre argument post c, argv = pre ++ argument :: post ∧ Reads handler argv (start t state) pre c ∧
        Unreported handler argv c argument e := by
  constructor
  · rintro ⟨h, he⟩
    have hread : readRest handler argv (start t state) argv = (_, .failed e) := Prod.ext rfl h
    obtain ⟨pre, argument, post, c, d, hargs, hpre, hstop, -⟩ := exists_stop hread nofun
    exact ⟨pre, argument, post, c, hargs, hpre, unreported_iff.mpr ⟨⟨d, hstop⟩, he⟩⟩
  · rintro ⟨pre, argument, post, c, hargs, hpre, hfail⟩
    obtain ⟨⟨d, hd⟩, he⟩ := unreported_iff.mp hfail
    have hread := readRest_of_stop hpre hd nofun post
    rw [← hargs] at hread
    rw [read_eq_readRest, hread]
    exact ⟨rfl, he⟩

end CommandLine

/-! ## Whole command lines -/

open CommandLine

namespace Context

variable {σ : Type} {ctx : Context} {argv : List String} {preamble : String} {handler : PositionalHandler σ}
  {state : σ} {st : ArgumentState σ}

/-- A refusal is the answer, and is reported. -/
theorem readCommandLine_of_refused (hpreamble : preamble ≠ "") (hhelp : helpRequest? argv = none) {refusal : Refusal}
    (hread : read handler state ctx.tree argv = (st, .refused refusal)) (width : Int) :
    ctx.readCommandLine argv preamble width handler state =
      ⟨{ ctx with tree := st.tree }, st.handler, .ok refusal.message, "", ctx.reported preamble refusal.message width⟩ := by
  have hempty : preamble.isEmpty = false := by simpa using hpreamble
  rw [readCommandLine, hhelp, ite_self]
  simp only [hread, hempty, Bool.false_eq_true, if_false, ctx.message_eq_reported _ _ (message_ne_empty_of_read hread)]

/-- A duplicate is an error, and is reported. -/
theorem readCommandLine_of_duplicate (hpreamble : preamble ≠ "") (hhelp : helpRequest? argv = none) {name : String}
    (hread : read handler state ctx.tree argv = (st, .failed (.duplicate name))) (width : Int) :
    ctx.readCommandLine argv preamble width handler state =
      ⟨{ ctx with tree := st.tree }, st.handler, .error (.duplicate name), "",
        ctx.reported preamble (ArgumentError.duplicate name).message width⟩ := by
  have hempty : preamble.isEmpty = false := by simpa using hpreamble
  rw [readCommandLine, hhelp, ite_self]
  simp only [hread, hempty, Bool.false_eq_true, if_false,
    ctx.message_eq_reported _ _ (ArgumentError.duplicate_message_ne_empty name)]

/-- Every other error is one, and is not reported. -/
theorem readCommandLine_of_failed (hhelp : helpRequest? argv = none) {e : ArgumentError} (he : ∀ name, e ≠ .duplicate name)
    (hread : read handler state ctx.tree argv = (st, .failed e)) (preamble : String) (width : Int) :
    ctx.readCommandLine argv preamble width handler state =
      ⟨{ ctx with tree := st.tree }, st.handler, .error e, "", ""⟩ := by
  rw [readCommandLine, hhelp, ite_self]
  simp only [hread]

/-- The answer is empty only if the command line is read to its end. -/
theorem exists_read_of_answer {width : Int} (h : (ctx.readCommandLine argv preamble width handler state).answer = .ok "") :
    ∃ st, read handler state ctx.tree argv = (st, .accepted) := by
  unfold readCommandLine at h
  split at h
  · exact absurd (Except.ok.inj h) (by decide)
  · obtain ⟨⟨st, verdict⟩, hread⟩ : ∃ out, read handler state ctx.tree argv = out := ⟨_, rfl⟩
    rw [hread] at h
    cases verdict with
    | accepted => exact ⟨st, hread⟩
    | refused refusal => exact absurd (Except.ok.inj h) (message_ne_empty_of_read hread)
    | failed e => cases e <;> cases h

/-- With a preamble, and without options for help, nothing is written to the error output if all is well, and a refusal or a
duplicate is reported there. Nothing is written exactly for keys that spell no name and for values that the tree refuses. -/
theorem readCommandLine_reports (ctx : Context) (hhelp : ∀ a ∈ argv, a ≠ "-h" ∧ a ≠ "--help" ∧ a ≠ "--help-all")
    (hpreamble : preamble ≠ "") (width : Int) (handler : PositionalHandler σ) (state : σ) :
    let result := ctx.readCommandLine argv preamble width handler state
    (∀ message, result.answer = .ok message →
      result.err = if message = "" then "" else ctx.reported preamble message width) ∧
    (∀ name, result.answer = .error (.duplicate name) →
      result.err = ctx.reported preamble (ArgumentError.duplicate name).message width) ∧
    (∀ e, result.answer = .error e → (result.err = "" ↔ ∀ name, e ≠ .duplicate name)) ∧
    ∀ e, result.answer = .error e ∧ result.err = "" ↔
      ∃ pre argument post c, argv = pre ++ argument :: post ∧ Reads handler argv (start ctx.tree state) pre c ∧
        Unreported handler argv c argument e := by
  intro result
  have hnone := helpRequest?_eq_none_iff.mpr hhelp
  simp only [← read_failed_iff]
  obtain ⟨⟨st, verdict⟩, hread⟩ : ∃ out, read handler state ctx.tree argv = out := ⟨_, rfl⟩
  rw [hread]
  cases verdict with
  | accepted =>
    rw [show result = _ from readCommandLine_of_accepted (by rw [hnone, ite_self]) hread width]
    simp
  | refused refusal =>
    have hmessage := message_ne_empty_of_read hread
    rw [show result = _ from readCommandLine_of_refused hpreamble hnone hread width]
    simp [hmessage]
  | failed e =>
    by_cases he : ∃ name, e = .duplicate name
    · obtain ⟨name, rfl⟩ := he
      have hreport := ctx.reported_ne_empty preamble (ArgumentError.duplicate name).message width
      rw [show result = _ from readCommandLine_of_duplicate hpreamble hnone hread width]
      simp [hreport]
    · rw [show result = _ from readCommandLine_of_failed hnone (not_exists.mp he) hread preamble width]
      simp [not_exists.mp he]

/-- A key with an underscore is an error that is not reported. -/
theorem readCommandLine_reports_of_underscore :
    let result := empty.readCommandLine ["--upwind_weight=1"] "Usage: sim" 80 noPositionals ()
    result.answer = .error (.badKey (.malformed "upwind_weight")) ∧
      ∃ pre argument post c, ["--upwind_weight=1"] = pre ++ argument :: post ∧
        Reads noPositionals ["--upwind_weight=1"] (start Tree.empty ()) pre c ∧
        Unreported noPositionals ["--upwind_weight=1"] c argument (.badKey (.malformed "upwind_weight")) := by
  intro result
  have hanswer : result.answer = .error (.badKey (.malformed "upwind_weight")) := by decide +kernel
  obtain ⟨-, -, hquiet, hreason⟩ :=
    @readCommandLine_reports Unit ["--upwind_weight=1"] "Usage: sim" empty (by decide) (by decide) 80 noPositionals ()
  exact ⟨hanswer, (hreason _).mp ⟨hanswer, (hquiet _ hanswer).mpr nofun⟩⟩

/-- The error of a key with an underscore comes without a usage message. -/
theorem readCommandLine_quiet :
    let result := empty.readCommandLine ["--upwind_weight=1"] "Usage: sim" 80 noPositionals ()
    result.answer = .error (.badKey (.malformed "upwind_weight")) ∧ result.err = "" ∧
      result.err ≠ empty.reported "Usage: sim" (ArgumentError.badKey (.malformed "upwind_weight")).message 80 := by
  intro result
  have herr : result.err = "" := by decide +kernel
  refine ⟨by decide +kernel, herr, ?_⟩
  rw [herr]
  exact Ne.symm (reported_ne_empty _ _ _ _)

end Context

end RunParams

import RunParams.Proofs.BatchWrites
import RunParams.Proofs.OptionGrammar

/-!
# Reading command lines

The arguments of a command line are read one after the other, up to the first that is not accepted. Where no other arguments than
options are taken, all are read exactly when each is an option, no name comes twice, and the tree takes all values.
-/

namespace RunParams

namespace CommandLine

/-- How far a command line has been read: the index of the argument in question, how many arguments from it on belong to a
positional argument before, how often the handler has been called, and what was read. -/
structure Cursor (σ : Type) where
  index : Nat
  taken : Nat
  handled : Nat
  state : ArgumentState σ

variable {σ : Type} {handler : PositionalHandler σ} {argv : List String}

/-- What the handler answers where a command line has been read up to a cursor. -/
def replyAt (handler : PositionalHandler σ) (argv : List String) (c : Cursor σ) : PositionalReply σ :=
  handler c.state.handler ⟨c.state.seen, argv, c.index, c.handled⟩

/-- Reads one argument. -/
def advance (handler : PositionalHandler σ) (argv : List String) (c : Cursor σ) (argument : String) : Cursor σ × Verdict :=
  match c.taken with
  | more + 1 => (⟨c.index + 1, more, c.handled, c.state⟩, .accepted)
  | 0 =>
    if isOption argument then
      let (st, verdict) := readOption c.state (c.index + 1) argument
      (⟨c.index + 1, 0, c.handled, st⟩, verdict)
    else
      let (st, verdict, count) := readPositional handler c.state ⟨c.state.seen, argv, c.index, c.handled⟩ argument
      (⟨c.index + 1, count - 1, c.handled + 1, st⟩, verdict)

/-- Reads arguments from a cursor on. -/
def readRest (handler : PositionalHandler σ) (argv : List String) (c : Cursor σ) (args : List String) :
    ArgumentState σ × Verdict :=
  readFrom handler argv c.index c.taken c.handled c.state args

/-- Reading goes on behind an argument that is accepted, and ends at any other. -/
theorem readRest_cons (c : Cursor σ) (argument : String) (rest : List String) :
    readRest handler argv c (argument :: rest) =
      match advance handler argv c argument with
      | (d, .accepted) => readRest handler argv d rest
      | (d, verdict) => (d.state, verdict) := by
  obtain ⟨index, taken, handled, st⟩ := c
  cases taken with
  | succ more => rfl
  | zero =>
    simp only [readRest, readFrom, advance]
    split
    · generalize readOption st (index + 1) argument = out
      obtain ⟨st, verdict⟩ := out
      cases verdict <;> rfl
    · generalize readPositional handler st ⟨st.seen, argv, index, handled⟩ argument = out
      obtain ⟨st, verdict, count⟩ := out
      cases verdict <;> rfl

/-! ## What one argument does -/

/-- What reading an argument does: nothing for one that belongs to another, and for the others what the reader of options or the
handler does. -/
inductive ArgumentStep (handler : PositionalHandler σ) (argv : List String) (c : Cursor σ) (argument : String) :
    Cursor σ × Verdict → Prop
  | taken {more : Nat} (h : c.taken = more + 1) :
      ArgumentStep handler argv c argument (⟨c.index + 1, more, c.handled, c.state⟩, .accepted)
  | option (h : c.taken = 0) (ho : isOption argument = true) {st : ArgumentState σ} {verdict : Verdict}
      (hstep : OptionStep c.state (c.index + 1) argument (st, verdict)) :
      ArgumentStep handler argv c argument (⟨c.index + 1, 0, c.handled, st⟩, verdict)
  | blocked (h : c.taken = 0) (ho : isOption argument = false) {t : Tree} {e : TreeError} {count : Nat}
      (hwrites : writeAll c.state.tree (replyAt handler argv c).writes = (t, some e)) :
      ArgumentStep handler argv c argument
        (⟨c.index + 1, count, c.handled + 1, ⟨t, c.state.seen, (replyAt handler argv c).state⟩⟩, .failed (.tree e))
  | refuse (h : c.taken = 0) (ho : isOption argument = false) {t : Tree} {count : Nat}
      (hwrites : writeAll c.state.tree (replyAt handler argv c).writes = (t, none))
      (hcount : (replyAt handler argv c).count < 1) :
      ArgumentStep handler argv c argument
        (⟨c.index + 1, count, c.handled + 1,
          ⟨t, (replyAt handler argv c).seen.foldl addSeen c.state.seen, (replyAt handler argv c).state⟩⟩,
          .refused (.positional (if (replyAt handler argv c).reason.isEmpty then illegalArgument argument
            else (replyAt handler argv c).reason)))
  | positional (h : c.taken = 0) (ho : isOption argument = false) {t : Tree}
      (hwrites : writeAll c.state.tree (replyAt handler argv c).writes = (t, none))
      (hcount : ¬(replyAt handler argv c).count < 1) :
      ArgumentStep handler argv c argument
        (⟨c.index + 1, (replyAt handler argv c).count.toNat - 1, c.handled + 1,
          ⟨t, (replyAt handler argv c).seen.foldl addSeen c.state.seen, (replyAt handler argv c).state⟩⟩, .accepted)

theorem advance_step (handler : PositionalHandler σ) (argv : List String) (c : Cursor σ) (argument : String) :
    ArgumentStep handler argv c argument (advance handler argv c argument) := by
  unfold advance
  split
  · rename_i more h
    exact .taken h
  · rename_i h
    split
    · rename_i ho
      exact .option h ho (readOption_step c.state (c.index + 1) ho)
    · rename_i ho
      unfold readPositional
      dsimp only
      split
      · rename_i t e hwrites
        exact .blocked h (by simpa using ho) hwrites
      · rename_i t hwrites
        split
        · rename_i hcount
          exact .refuse h (by simpa using ho) hwrites hcount
        · rename_i hcount
          exact .positional h (by simpa using ho) hwrites hcount

/-! ## What many arguments do -/

/-- Arguments are accepted one after the other, from one cursor to another. -/
inductive Reads (handler : PositionalHandler σ) (argv : List String) : Cursor σ → List String → Cursor σ → Prop
  | nil {c : Cursor σ} : Reads handler argv c [] c
  | cons {c d e : Cursor σ} {argument : String} {rest : List String} (h : advance handler argv c argument = (d, .accepted))
      (hs : Reads handler argv d rest e) : Reads handler argv c (argument :: rest) e

/-- Arguments behind others that were accepted. -/
theorem readRest_append {c d : Cursor σ} {pre : List String} (h : Reads handler argv c pre d) (post : List String) :
    readRest handler argv c (pre ++ post) = readRest handler argv d post := by
  induction h with
  | nil => rfl
  | cons h _ ih =>
    rw [List.cons_append, readRest_cons, h]
    exact ih

/-- All arguments are accepted exactly when they are so one after the other. -/
theorem readRest_eq_accepted_iff {c : Cursor σ} {args : List String} {st : ArgumentState σ} :
    readRest handler argv c args = (st, .accepted) ↔ ∃ d, Reads handler argv c args d ∧ d.state = st := by
  constructor
  · intro h
    induction args generalizing c with
    | nil =>
      cases h
      exact ⟨c, .nil, rfl⟩
    | cons argument rest ih =>
      rw [readRest_cons] at h
      split at h
      · rename_i d hd
        obtain ⟨e, hr, rfl⟩ := ih h
        exact ⟨e, .cons hd hr, rfl⟩
      · rename_i d verdict hverdict hd
        cases h
        exact absurd rfl hverdict
  · rintro ⟨d, hr, rfl⟩
    simpa [readRest, readFrom] using readRest_append hr []

/-- Reading ends at an argument that is not accepted. -/
theorem readRest_of_stop {c d e : Cursor σ} {pre : List String} {argument : String} {verdict : Verdict}
    (hr : Reads handler argv c pre d) (hstop : advance handler argv d argument = (e, verdict))
    (hverdict : verdict ≠ .accepted) (post : List String) :
    readRest handler argv c (pre ++ argument :: post) = (e.state, verdict) := by
  rw [readRest_append hr, readRest_cons, hstop]
  split
  · rename_i he
    cases he
    exact absurd rfl hverdict
  · rename_i he
    cases he
    rfl

/-- Reading that does not end well ends at the first argument that is not accepted. -/
theorem exists_stop {c : Cursor σ} {args : List String} {st : ArgumentState σ} {verdict : Verdict}
    (h : readRest handler argv c args = (st, verdict)) (hverdict : verdict ≠ .accepted) :
    ∃ pre argument post d e, args = pre ++ argument :: post ∧ Reads handler argv c pre d ∧
      advance handler argv d argument = (e, verdict) ∧ e.state = st := by
  induction args generalizing c with
  | nil =>
    cases h
    exact absurd rfl hverdict
  | cons argument rest ih =>
    rw [readRest_cons] at h
    split at h
    · rename_i d hd
      obtain ⟨pre, stop, post, e, f, rfl, hr, hstop, rfl⟩ := ih h
      exact ⟨argument :: pre, stop, post, e, f, rfl, .cons hd hr, hstop, rfl⟩
    · rename_i d v _ hd
      cases h
      exact ⟨[], argument, rest, c, d, rfl, .nil, hd, rfl⟩

/-- Where the reading of a command line starts. -/
def start (t : Tree) (state : σ) : Cursor σ :=
  ⟨0, 0, 0, ⟨t, [], state⟩⟩

theorem read_eq_readRest (handler : PositionalHandler σ) (argv : List String) (state : σ) (t : Tree) :
    read handler state t argv = readRest handler argv (start t state) argv :=
  rfl

/-! ## Command lines of options -/

open Document (writeEntries)

/-- A cursor behind options that give names values. -/
def Cursor.past (c : Cursor σ) (entries : List (String × String)) : Cursor σ :=
  ⟨c.index + entries.length, 0, c.handled,
    ⟨(writeEntries true c.state.tree entries).1, c.state.seen ++ entries.map (·.1), c.state.handler⟩⟩

/-- The options that are accepted from a cursor on: no name of theirs has been seen or comes twice, and all of their values can
be written. -/
structure Accepts (c : Cursor σ) (args : List String) (entries : List (String × String)) : Prop where
  forms : List.Forall₂ OptionForm args entries
  nodup : (entries.map (·.1)).Nodup
  fresh : ∀ n ∈ entries.map (·.1), n ∉ c.state.seen
  writes : (writeEntries true c.state.tree entries).2 = none

section

variable {c d : Cursor σ} {argument name value : String}

theorem writeEntries_true_cons {t : Tree} (ok : (t.set name value).2 = none) (more : List (String × String)) :
    writeEntries true t ((name, value) :: more) = writeEntries true (t.set name value).1 more :=
  Document.writeEntries_cons more ok

/-- A cursor behind one option. -/
theorem past_singleton (c : Cursor σ) (ok : (c.state.tree.set name value).2 = none) :
    c.past [(name, value)] =
      ⟨c.index + 1, 0, c.handled, ⟨(c.state.tree.set name value).1, c.state.seen ++ [name], c.state.handler⟩⟩ := by
  rw [Cursor.past, writeEntries_true_cons ok]
  rfl

/-- An option is accepted exactly when it has the form of one and a new name, and its value can be written. -/
theorem advance_option_iff (h : c.taken = 0) (ho : isOption argument = true) :
    advance handler argv c argument = (d, .accepted) ↔
      ∃ name value, OptionForm argument (name, value) ∧ name ∉ c.state.seen ∧ (c.state.tree.set name value).2 = none ∧
        d = c.past [(name, value)] := by
  constructor
  · intro hd
    have hstep := advance_step handler argv c argument
    rw [hd] at hstep
    cases hstep with
    | taken h' => omega
    | option _ _ hstep =>
      cases hstep with
      | @assign name value hform hnew ok => exact ⟨name, value, hform, hnew, ok, (past_singleton c ok).symm⟩
    | positional _ ho' => simp [ho] at ho'
  · rintro ⟨name, value, hform, hnew, ok, rfl⟩
    unfold advance
    rw [h]
    simp only [ho, if_true, readOption_of_set c.state (c.index + 1) hform hnew ok, past_singleton c ok]

theorem past_nil (h : c.taken = 0) : c.past [] = c := by
  obtain ⟨index, taken, handled, st⟩ := c
  cases h
  simp [Cursor.past, writeEntries]

/-- Options are passed one after the other. -/
theorem past_cons (ok : (c.state.tree.set name value).2 = none) (more : List (String × String)) :
    c.past ((name, value) :: more) = (c.past [(name, value)]).past more := by
  rw [past_singleton c ok]
  simp only [Cursor.past, writeEntries_true_cons ok, List.length_cons, List.map_cons, List.append_assoc,
    List.singleton_append, Cursor.mk.injEq, and_true]
  omega

/-- An option with a new name whose value can be written is accepted, and those behind it are accepted over that. -/
theorem accepts_cons_iff {rest : List String} {more : List (String × String)} (hform : OptionForm argument (name, value)) :
    Accepts c (argument :: rest) ((name, value) :: more) ↔
      name ∉ c.state.seen ∧ (c.state.tree.set name value).2 = none ∧ Accepts (c.past [(name, value)]) rest more := by
  constructor
  · intro h
    obtain ⟨hfresh, hnodup⟩ := List.nodup_cons.mp h.nodup
    have ok : (c.state.tree.set name value).2 = none := by
      by_contra hfail
      have hwrite : (Document.write true c.state.tree name value).2 ≠ none := hfail
      exact Document.writeEntries_cons_ne_none more hwrite h.writes
    rw [past_singleton c ok]
    refine ⟨h.fresh name (by simp), ok, (List.forall₂_cons.mp h.forms).2, hnodup, ?_, ?_⟩
    · intro n hn hmem
      rcases List.mem_append.mp hmem with hmem | hmem
      · exact h.fresh n (List.mem_cons_of_mem _ hn) hmem
      · obtain rfl : n = name := by simpa using hmem
        exact hfresh hn
    · have hwrites := h.writes
      rw [writeEntries_true_cons ok] at hwrites
      exact hwrites
  · rintro ⟨hnew, ok, h⟩
    rw [past_singleton c ok] at h
    refine ⟨.cons hform h.forms, ?_, ?_, ?_⟩
    · exact List.nodup_cons.mpr ⟨fun hmem => h.fresh name hmem (by simp), h.nodup⟩
    · intro n hn
      rcases List.mem_cons.mp hn with rfl | hn
      · exact hnew
      · exact fun hmem => h.fresh n hn (List.mem_append_left _ hmem)
    · rw [writeEntries_true_cons ok]
      exact h.writes

/-- Options are read without a refusal exactly when they are accepted with the names and values that they give. -/
theorem reads_options_iff {args : List String} (h : c.taken = 0) (hoptions : ∀ a ∈ args, isOption a = true) :
    Reads handler argv c args d ↔ ∃ entries, Accepts c args entries ∧ d = c.past entries := by
  induction args generalizing c with
  | nil =>
    constructor
    · intro hr
      cases hr
      exact ⟨[], ⟨.nil, by simp, by simp, rfl⟩, (past_nil h).symm⟩
    · rintro ⟨entries, hentries, rfl⟩
      obtain rfl := List.forall₂_nil_left_iff.mp hentries.forms
      rw [past_nil h]
      exact .nil
  | cons argument rest ih =>
    have ho := hoptions argument (by simp)
    have hrest : ∀ a ∈ rest, isOption a = true := fun a ha => hoptions a (List.mem_cons_of_mem _ ha)
    constructor
    · intro hr
      cases hr with
      | cons hd hr =>
        obtain ⟨name, value, hform, hnew, ok, rfl⟩ := (advance_option_iff h ho).mp hd
        obtain ⟨entries, hentries, rfl⟩ := (ih rfl hrest).mp hr
        exact ⟨(name, value) :: entries, (accepts_cons_iff hform).mpr ⟨hnew, ok, hentries⟩, (past_cons ok entries).symm⟩
    · rintro ⟨entries, hentries, rfl⟩
      obtain ⟨⟨name, value⟩, more, hform, -, rfl⟩ := List.forall₂_cons_left_iff.mp hentries.forms
      obtain ⟨hnew, ok, hmore⟩ := (accepts_cons_iff hform).mp hentries
      refine .cons ((advance_option_iff h ho).mpr ⟨name, value, hform, hnew, ok, rfl⟩) ((ih rfl hrest).mpr ⟨more, hmore, ?_⟩)
      exact past_cons ok more

end

/-- Where no other arguments are taken, an argument that is accepted is an option, and takes no argument behind it. -/
theorem isOption_of_advance {c d : Cursor Unit} {argument : String} (h : c.taken = 0)
    (hd : advance noPositionals argv c argument = (d, .accepted)) : isOption argument = true ∧ d.taken = 0 := by
  by_cases ho : isOption argument = true
  · obtain ⟨name, value, -, -, -, rfl⟩ := (advance_option_iff h ho).mp hd
    exact ⟨ho, rfl⟩
  · unfold advance at hd
    rw [h] at hd
    simp [ho, readPositional, noPositionals, writeAll] at hd

theorem isOption_of_reads {c d : Cursor Unit} {args : List String} (h : c.taken = 0) (hr : Reads noPositionals argv c args d) :
    ∀ a ∈ args, isOption a = true := by
  induction hr with
  | nil => simp
  | cons hd _ ih =>
    obtain ⟨ho, htaken⟩ := isOption_of_advance h hd
    intro a ha
    rcases List.mem_cons.mp ha with rfl | ha
    · exact ho
    · exact ih htaken a ha

/-- Where no other arguments are taken, a command line is read to its end exactly when all of its arguments are options, no name
comes twice, and all of their values can be written. -/
theorem read_options_eq_accepted_iff {t : Tree} {st : ArgumentState Unit} :
    read noPositionals () t argv = (st, .accepted) ↔
      ∃ entries, List.Forall₂ OptionForm argv entries ∧ (entries.map (·.1)).Nodup ∧
        writeEntries true t entries = (st.tree, none) ∧ st.seen = entries.map (·.1) := by
  rw [read_eq_readRest, readRest_eq_accepted_iff]
  constructor
  · rintro ⟨d, hr, rfl⟩
    obtain ⟨entries, hentries, rfl⟩ := (reads_options_iff rfl (isOption_of_reads rfl hr)).mp hr
    exact ⟨entries, hentries.forms, hentries.nodup, Prod.ext rfl hentries.writes, by simp [Cursor.past, start]⟩
  · rintro ⟨entries, hforms, hnodup, hwrites, hseen⟩
    have hoptions : ∀ a ∈ argv, isOption a = true :=
      ((List.forall₂_and_left _ _).mp (hforms.imp fun _ _ h => ⟨h.exists_body.1, h⟩)).1
    have hentries : Accepts (start t ()) argv entries := ⟨hforms, hnodup, by simp [start], congrArg Prod.snd hwrites⟩
    have hstate : ((start t ()).past entries).state = st := by
      obtain ⟨tree, seen, handler⟩ := st
      simp only [Cursor.past, start, List.nil_append, hwrites, ← hseen]
    exact ⟨_, (reads_options_iff rfl hoptions).mpr ⟨entries, hentries, rfl⟩, hstate⟩

/-! ## Options for help -/

theorem helpRequest?_eq_none_iff : helpRequest? argv = none ↔ ∀ a ∈ argv, a ≠ "-h" ∧ a ≠ "--help" ∧ a ≠ "--help-all" := by
  rw [helpRequest?, List.findSome?_eq_none_iff]
  refine forall₂_congr fun a _ => ?_
  by_cases hshort : a = "-h" ∨ a = "--help"
  · simp only [hshort, if_true]
    tauto
  · rw [if_neg hshort, ite_eq_right_iff]
    simp only [reduceCtorEq, imp_false]
    tauto

/-- Options with values ask for no help. -/
theorem helpRequest?_of_forms {entries : List (String × String)} (h : List.Forall₂ OptionForm argv entries) :
    helpRequest? argv = none := by
  rw [helpRequest?_eq_none_iff]
  have hequals : ∀ a ∈ argv, '=' ∈ a.toList := by
    refine ((List.forall₂_and_left _ _).mp (h.imp fun a e ha => ⟨?_, ha⟩)).1
    cases ha <;> simp
  intro a ha
  have hne : ∀ help : String, '=' ∉ help.toList → a ≠ help := by
    rintro help hnot rfl
    exact hnot (hequals a ha)
  exact ⟨hne "-h" (by decide), hne "--help" (by decide), hne "--help-all" (by decide)⟩

end CommandLine

open CommandLine

/-- A command line that is read to its end answers nothing, and writes nothing. -/
theorem Context.readCommandLine_of_accepted {σ : Type} {ctx : Context} {argv : List String} {preamble : String}
    {handler : PositionalHandler σ} {state : σ} {st : ArgumentState σ}
    (hhelp : (if preamble.isEmpty then none else helpRequest? argv) = none)
    (hread : read handler state ctx.tree argv = (st, .accepted)) (width : Int) :
    ctx.readCommandLine argv preamble width handler state =
      ⟨{ ctx with tree := st.tree }, st.handler, .ok "", "", ""⟩ := by
  rw [readCommandLine, hhelp]
  simp only [hread]

/-- Options with different names whose values can be written are read to their end, and their values are in the tree. -/
theorem Context.readCommandLine_of_forms {ctx : Context} {argv : List String} {entries : List (String × String)} {t : Tree}
    (hforms : List.Forall₂ OptionForm argv entries) (hnodup : (entries.map (·.1)).Nodup)
    (hwrites : Document.writeEntries true ctx.tree entries = (t, none)) (preamble : String) (width : Int) :
    ctx.readCommandLine argv preamble width noPositionals () = ⟨{ ctx with tree := t }, (), .ok "", "", ""⟩ := by
  have hread : read noPositionals () ctx.tree argv = (⟨t, entries.map (·.1), ()⟩, .accepted) :=
    read_options_eq_accepted_iff.mpr ⟨entries, hforms, hnodup, hwrites, rfl⟩
  exact readCommandLine_of_accepted (by rw [helpRequest?_of_forms hforms, ite_self]) hread width

end RunParams

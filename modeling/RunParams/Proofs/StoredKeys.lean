import RunParams.Files
import RunParams.Proofs.ArgumentPrefixes
import RunParams.Proofs.ListingRoundTrip
import RunParams.Proofs.Precedence

/-!
# Stored keys

Values come into a tree through command lines, texts and files. Whether a parse of one succeeds or fails, all that it stores is
what an option or a line asks for, at the path that the key spells. So the keys that are stored are canonical, and a sub-tree is
made only by a line whose key has dots.
-/

namespace RunParams

open CommandLine (OptionForm)
open Document (LineForm)

/-! ## What is written -/

section

variable {P : Tree → Prop}

namespace Document

/-- What a write that a line asks for keeps, reading the line keeps. -/
theorem readLine_writes {line : List Char}
    (hP : ∀ path value, LineForm line (some (path, value)) → ∀ t, P t → P (t.set path value).1) (overwrite : Bool)
    {p : Progress} (h : P p.tree) : P (readLine overwrite p line).1.tree := by
  have hstep := readLine_step overwrite p line
  generalize readLine overwrite p line = out at hstep ⊢
  cases hstep with
  | remark _ => exact h
  | @assign path value hform _ =>
    unfold write
    dsimp only
    split
    · exact hP path value hform _ h
    · exact h
  | refuse _ _ _ => exact h

/-- What the writes that lines ask for keep, reading the lines keeps, however far that goes. -/
theorem readLines_writes {lines : List (List Char)}
    (hP : ∀ line ∈ lines, ∀ path value, LineForm line (some (path, value)) → ∀ t, P t → P (t.set path value).1)
    (source : String) (overwrite : Bool) (n : Nat) {p : Progress} (h : P p.tree) :
    P (readLines source overwrite n p lines).1 := by
  induction lines generalizing n p with
  | nil => exact h
  | cons line lines ih =>
    obtain ⟨hline, hlines⟩ := List.forall_mem_cons.mp hP
    have hnext := readLine_writes hline overwrite h
    rw [readLines]
    split
    · rename_i e
      rw [e] at hnext
      exact hnext
    · rename_i e
      rw [e] at hnext
      exact ih hlines _ hnext

end Document

namespace CommandLine

/-- What a write that an argument asks for keeps, reading the argument keeps, if no other arguments than options are taken. -/
theorem advance_writes {argument : String}
    (hP : ∀ name value, OptionForm argument (name, value) → ∀ t, P t → P (t.set name value).1) (argv : List String)
    {c : Cursor Unit} (h : P c.state.tree) : P (advance noPositionals argv c argument).1.state.tree := by
  have hstep := advance_step noPositionals argv c argument
  generalize advance noPositionals argv c argument = out at hstep ⊢
  cases hstep with
  | taken _ => exact h
  | option _ _ hoption =>
    cases hoption with
    | assign hform _ _ => exact hP _ _ hform _ h
    | noLetter _ => exact h
    | badKey _ _ => exact h
    | duplicate _ _ _ => exact h
    | noValue _ _ _ _ => exact h
    | blocked _ _ _ => exact h
  | blocked _ _ hwrites => cases hwrites
  | refuse _ _ hwrites _ =>
    cases hwrites
    exact h
  | positional _ _ _ hcount => exact absurd (show (0 : Int) < 1 by decide) hcount

/-- What the writes that arguments ask for keep, reading the arguments keeps, however far that goes. -/
theorem readRest_writes {args : List String}
    (hP : ∀ argument ∈ args, ∀ name value, OptionForm argument (name, value) → ∀ t, P t → P (t.set name value).1)
    (argv : List String) {c : Cursor Unit} (h : P c.state.tree) : P (readRest noPositionals argv c args).1.tree := by
  induction args generalizing c with
  | nil => exact h
  | cons argument args ih =>
    obtain ⟨hargument, hargs⟩ := List.forall_mem_cons.mp hP
    have hnext := advance_writes hargument argv h
    rw [readRest_cons]
    split
    · rename_i e
      rw [e] at hnext
      exact ih hargs hnext
    · rename_i e
      rw [e] at hnext
      exact hnext

end CommandLine

end

/-! ## Parses -/

/-- What is parsed: a command line or a text, or a file, whose text cannot always be had. -/
inductive Parse
  | source (s : Source)
  | file (path : String) (content : Except FileError String) (overwrite : Bool)

namespace Parse

/-- The text that is read as a document. -/
def text? : Parse → Option String
  | source (.commandLine _ _ _) => none
  | source (.document text _ _) => some text
  | file _ (.ok text) _ => some text
  | file _ (.error _) _ => none

/-- What is parsed asks for a value at a path: as an option or as a line. -/
inductive Asks (p : Parse) (path value : String) : Prop
  | option {argv : List String} {preamble argument : String} {width : Int} (hp : p = .source (.commandLine argv preamble width))
      (hmem : argument ∈ argv) (h : OptionForm argument (path, value)) : Asks p path value
  | line {text : String} {line : List Char} (htext : p.text? = some text) (hmem : line ∈ Text.lines text.toList)
      (h : LineForm line (some (path, value))) : Asks p path value

/-- Paths that are asked for have canonical names. -/
theorem Asks.isCanonical {p : Parse} {path value : String} (h : p.Asks path value) :
    ∀ n ∈ Spelling.segments path, Spelling.IsCanonical n := by
  cases h with
  | option _ _ hform =>
    have hcanonical : Spelling.IsCanonical path := by
      cases hform with
      | long hkey => exact hkey.isCanonical
      | short hkey _ => exact hkey.isCanonical
    intro n hn
    rw [segments_of_dotFree hcanonical.dotFree, List.mem_singleton] at hn
    exact hn ▸ hcanonical
  | line _ _ hform =>
    cases hform with
    | assignment _ _ _ hpath _ => exact hpath.isCanonical

end Parse

namespace Context

/-- The context after a parse, whether that succeeds or fails. A file whose text cannot be had changes nothing. -/
def parse (ctx : Context) : Parse → Context
  | .source s => ctx.after s.operation
  | .file path (.ok text) overwrite => ctx.after (.readDocument text path overwrite)
  | .file _ (.error _) _ => ctx

/-- The context after parses, one after the other. -/
def parseAll (ctx : Context) (parses : List Parse) : Context :=
  parses.foldl parse ctx

/-- What the writes of options keep, a command line of options keeps. -/
theorem commandLine_writes {P : Tree → Prop} {ctx : Context} {argv : List String}
    (hP : ∀ argument ∈ argv, ∀ name value, OptionForm argument (name, value) → ∀ t, P t → P (t.set name value).1)
    (h : P ctx.tree) (preamble : String) (width : Int) :
    P (ctx.parse (.source (.commandLine argv preamble width))).tree := by
  change P (ctx.readCommandLine argv preamble width CommandLine.noPositionals ()).context.tree
  obtain e | e := ctx.readCommandLine_context argv preamble width CommandLine.noPositionals ()
  · rw [e]
    exact h
  · rw [e, CommandLine.read_eq_readRest]
    exact CommandLine.readRest_writes hP argv h

/-- What the writes that are asked for keep, a parse keeps. -/
theorem parse_writes {P : Tree → Prop} {ctx : Context} {p : Parse}
    (hP : ∀ path value, p.Asks path value → ∀ t, P t → P (t.set path value).1) (h : P ctx.tree) : P (ctx.parse p).tree := by
  have hdocument : ∀ text source overwrite, p.text? = some text → P (Document.read ctx.tree text source overwrite).1 :=
    fun text source overwrite htext =>
      Document.readLines_writes (fun line hmem path value hform => hP path value (.line htext hmem hform)) source overwrite 1 h
  cases p with
  | source s =>
    cases s with
    | commandLine argv preamble width =>
      exact commandLine_writes (fun argument hmem name value hform => hP name value (.option rfl hmem hform)) h preamble width
    | document text name overwrite => exact hdocument text name overwrite rfl
  | file path content overwrite =>
    cases content with
    | ok text => exact hdocument text path overwrite rfl
    | error e => exact h

/-- What the writes that are asked for keep, parses keep. -/
theorem parseAll_writes {P : Tree → Prop} {ctx : Context} {parses : List Parse}
    (hP : ∀ p ∈ parses, ∀ path value, p.Asks path value → ∀ t, P t → P (t.set path value).1) (h : P ctx.tree) :
    P (ctx.parseAll parses).tree := by
  induction parses generalizing ctx with
  | nil => exact h
  | cons p parses ih =>
    obtain ⟨hp, hparses⟩ := List.forall_mem_cons.mp hP
    exact ih hparses (parse_writes hp h)

/-! ## What is stored -/

/-- A tree is well formed, and holds only values that were asked for. -/
structure StoredBy (parses : List Parse) (t : Tree) : Prop where
  wellFormed : t.WellFormed
  asked : ∀ path value, t.get? path = some value → ∃ p ∈ parses, p.Asks path value

theorem StoredBy.set {parses : List Parse} {t : Tree} (h : StoredBy parses t) {p : Parse} (hp : p ∈ parses)
    {path value : String} (hasks : p.Asks path value) : StoredBy parses (t.set path value).1 := by
  refine ⟨h.wellFormed.set path value, ?_⟩
  cases hset : (t.set path value).2 with
  | some e =>
    rw [Tree.set_eq_self (by simp [hset])]
    exact h.asked
  | none =>
    intro q v hv
    rw [Tree.get?_set hset] at hv
    split at hv
    · rename_i hq
      obtain rfl := Option.some.inj hv
      exact ⟨p, hp, hq ▸ hasks⟩
    · exact h.asked q v hv

/-- Parses store nothing in an empty tree but what they ask for. -/
theorem parseAll_stored (reg : Registry String) (parses : List Parse) :
    StoredBy parses ((Context.mk reg .empty).parseAll parses).tree := by
  refine parseAll_writes (fun p hp path value hasks t ht => ht.set hp hasks) ⟨Tree.wellFormed_empty, ?_⟩
  intro path value hvalue
  rw [Tree.get?, Tree.getFrom_empty] at hvalue
  cases hvalue

/-- Every key that is stored was asked for. -/
theorem StoredBy.exists_asks {parses : List Parse} {t : Tree} (h : StoredBy parses t) {k : String} (hk : k ∈ t.keys) :
    ∃ p ∈ parses, ∃ value, p.Asks k value := by
  obtain ⟨value, hvalue⟩ := Option.isSome_iff_exists.mp (h.wellFormed.mem_keys_iff.mp hk)
  obtain ⟨p, hp, hasks⟩ := h.asked k value hvalue
  exact ⟨p, hp, value, hasks⟩

/-- A sub-tree has a key below it that a line asked for, as the names that options ask for have no dots. -/
theorem StoredBy.exists_line {parses : List Parse} {t : Tree} (h : StoredBy parses t) {q : String}
    (hq : t.hasSub q = true) :
    ∃ p ∈ parses, ∃ text line path value, p.text? = some text ∧ line ∈ Text.lines text.toList ∧
      LineForm line (some (path, value)) ∧ IsAbove q path ∧ path ∈ t.keys := by
  obtain ⟨path, hleaf, habove⟩ := h.wellFormed.hasSub_iff.mp hq
  have hkey : path ∈ t.keys := Tree.mem_keys.mpr hleaf
  obtain ⟨p, hp, value, hasks⟩ := h.exists_asks hkey
  cases hasks with
  | option _ _ hform => exact absurd hform.dotFree habove.not_dotFree
  | line htext hmem hform => exact ⟨p, hp, _, _, path, value, htext, hmem, hform, habove, hkey⟩

/-- In a tree that was empty, parses of command lines of options, of texts and of files store nothing but canonical keys, whether
they succeed or fail: every segment of a key is a capital and then letters and digits. Hence a stored key spells itself, and no
two of them spell the same path. A sub-tree has a key below it that is stored and that a line of a text assigns; command lines
neither make a sub-tree nor take one away. -/
theorem stored_keys_canonical (reg : Registry String) (parses : List Parse) :
    let ctx := (Context.mk reg .empty).parseAll parses
    (∀ k ∈ ctx.tree.keys,
      (∀ n ∈ Spelling.segments k, Spelling.IsCanonical n) ∧ Spelling.canonicalizePath k = .ok k) ∧
    (∀ k ∈ ctx.tree.keys, ∀ l ∈ ctx.tree.keys, ∀ path,
      Spelling.canonicalizePath k = .ok path → Spelling.canonicalizePath l = .ok path → k = l) ∧
    (∀ q, ctx.tree.hasSub q = true →
      ∃ p ∈ parses, ∃ text line path value, p.text? = some text ∧ line ∈ Text.lines text.toList ∧
        LineForm line (some (path, value)) ∧ IsAbove q path ∧ path ∈ ctx.tree.keys) ∧
    ∀ (c : Context) argv preamble width q,
      (c.parse (.source (.commandLine argv preamble width))).tree.hasSub q = c.tree.hasSub q := by
  intro ctx
  have hstored := parseAll_stored reg parses
  have hsegments : ∀ k ∈ ctx.tree.keys, ∀ n ∈ Spelling.segments k, Spelling.IsCanonical n := by
    intro k hk
    obtain ⟨p, -, value, hasks⟩ := hstored.exists_asks hk
    exact hasks.isCanonical
  have hself : ∀ k ∈ ctx.tree.keys, Spelling.canonicalizePath k = .ok k :=
    fun k hk => Spelling.canonicalizePath_eq_self_iff.mpr (hsegments k hk)
  refine ⟨fun k hk => ⟨hsegments k hk, hself k hk⟩, ?_, fun q hq => hstored.exists_line hq, ?_⟩
  · intro k hk l hl path hkpath hlpath
    have hkp : k = path := Except.ok.inj ((hself k hk).symm.trans hkpath)
    have hlp : l = path := Except.ok.inj ((hself l hl).symm.trans hlpath)
    rw [hkp, hlp]
  · intro c argv preamble width q
    refine commandLine_writes (P := fun t => t.hasSub q = c.tree.hasSub q) ?_ rfl preamble width
    intro argument _ name value hform t ht
    rw [t.hasSub_set hform.dotFree value q]
    exact ht

/-- A command line that is refused at its second option, a file that cannot be read, and a text that fails at its second line. -/
theorem stored_keys_canonical_of_failures :
    let parses : List Parse :=
      [.source (.commandLine ["--upwind-weight=1", "--=2"] "" 80), .file "case.ini" (.error .nullInPath) true,
        .source (.document "newton.max-steps = 3\nnewton = 4" "case.ini" false)]
    let ctx := (Context.mk .empty .empty).parseAll parses
    ctx.tree.keys = ["UpwindWeight", "Newton.MaxSteps"] ∧ Spelling.canonicalizePath "Newton.MaxSteps" = .ok "Newton.MaxSteps" ∧
      (∃ p ∈ parses, ∃ text line path value, p.text? = some text ∧ line ∈ Text.lines text.toList ∧
        LineForm line (some (path, value)) ∧ IsAbove "Newton" path ∧ path ∈ ctx.tree.keys) ∧
      (ctx.parse (.source (.commandLine ["--newton=4"] "" 80))).tree.hasSub "Newton" = true := by
  intro parses ctx
  have hkeys : ctx.tree.keys = ["UpwindWeight", "Newton.MaxSteps"] := by decide +kernel
  have hsub : ctx.tree.hasSub "Newton" = true := by decide +kernel
  obtain ⟨hcanonical, -, hlines, hkeep⟩ := stored_keys_canonical .empty parses
  exact ⟨hkeys, (hcanonical "Newton.MaxSteps" (by rw [hkeys]; simp)).2, hlines "Newton" hsub,
    (hkeep ctx ["--newton=4"] "" 80 "Newton").trans hsub⟩

end Context

end RunParams

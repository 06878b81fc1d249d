import RunParams.Proofs.DocumentRuns
import RunParams.Proofs.FlagSettings
import RunParams.Proofs.Flags
import RunParams.Proofs.Lines

/-!
# Channels

A value comes into the tree by a direct write, by an option of a command line or by a line of a document. However the key is
spelled, the three do the same: they write the value, or they fail with the same error and leave everything as it is.
-/

namespace RunParams

open CommandLine

/-! ## One option -/

/-- A command line of one option writes the value, and fails as the write does. -/
theorem Context.readCommandLine_option {argument name value : String} (h : OptionForm argument (name, value)) (ctx : Context)
    (preamble : String) (width : Int) :
    ctx.readCommandLine [argument] preamble width noPositionals () =
      ⟨(ctx.set name value).1, (), (ctx.tree.set name value).2.elim (.ok "") (.error ∘ .tree), "", ""⟩ := by
  have hhelp : (if preamble.isEmpty then none else helpRequest? [argument]) = none := by
    rw [helpRequest?_of_forms (.cons h .nil), ite_self]
  obtain ⟨ho, -⟩ := h.exists_body
  rw [readCommandLine, hhelp]
  cases hset : ctx.tree.set name value with
  | mk t error =>
    have hoption := readOption_eq ⟨ctx.tree, [], ()⟩ 1 h List.not_mem_nil hset
    cases error <;> simp [CommandLine.read, readFrom, ho, hoption, set, hset]

/-! ## One line -/

/-- A document of one line that assigns a value writes it, and fails as the write does. -/
theorem Document.read_of_assignment {text path value : String} (hnl : '\n' ∉ text.toList)
    (h : LineForm text.toList (some (path, value))) (t : Tree) (source : String) (overwrite : Bool) :
    read t text source overwrite =
      ((write overwrite t path value).1, (write overwrite t path value).2.map fun e => ⟨source, 1, .tree e⟩) := by
  have hline := readLine_of_assignment h (p := ⟨t, []⟩) List.not_mem_nil overwrite
  rw [read, Text.lines_of_not_mem hnl, readLines, hline]
  cases (write overwrite t path value).2 <;> rfl

/-- A key that spells a name has no dots, so that it spells the name as a path too. -/
theorem Spelling.Spells.spellsPath {key name : String} (h : Spells key name) : SpellsPath key name := by
  have hd : DotFree key := by
    intro hdot
    rcases h.mem _ hdot with halnum | hdash
    · exact (of_isAlphanum halnum).2.1 rfl
    · exact absurd hdash (by decide)
  refine ⟨[name], ?_, by simp [dotted]⟩
  rw [segments_of_dotFree hd]
  exact .cons h .nil

/-- A key, an equals sign and a literal make a line that assigns the value of the literal to the name that the key spells. -/
theorem Document.lineForm_literal {key name literal : String} {value : List Char} (hkey : Spelling.Spells key name)
    (hlit : Token.value true literal.toList = .ok (value, [])) :
    LineForm (key ++ " = " ++ literal).toList (some (name, String.ofList value)) := by
  obtain ⟨units, hunits, hlist⟩ := Quoted.decode_eq_ok_iff.mp hlit
  have hbody : Quoted.Body units.flatten value := Quoted.body_iff_units.mpr ⟨units, hunits, rfl⟩
  have hblank : Blanks [' '] := blanks_singleton (by decide)
  have hrest : RestForm (' ' :: '=' :: ' ' :: literal.toList) (String.ofList value) :=
    ⟨[' '], [' '], '"' :: units.flatten ++ ['"'], [], [], value, hblank, hblank, blanks_nil, .quoted hbody, .inl rfl,
      by simp [hlist], rfl⟩
  obtain ⟨c, s, hcs, -⟩ := spells_cons hkey
  have hspells : Spelling.SpellsPath (String.ofList key.toList) name := by
    rw [String.ofList_toList]
    exact hkey.spellsPath
  have hkc : ∀ c ∈ key.toList, Text.isBlank c = false ∧ c ≠ '=' := fun c hc => inKey_iff.mp (spells_inKey hkey c hc)
  have hline := LineForm.assignment blanks_nil (by simp [hcs]) hkc hspells hrest
  simpa using hline

/-- A key has no newline. -/
theorem Spelling.Spells.newline_not_mem {key name : String} (h : Spells key name) : '\n' ∉ key.toList :=
  fun hmem => absurd (spells_inKey h _ hmem) (by decide)

/-- A document of a key, an equals sign and a literal on one line writes the value of the literal, and fails as the write does. -/
theorem Document.read_literal {key name literal value : String} (hkey : Spelling.Spells key name)
    (hlit : Token.value true literal.toList = .ok (value.toList, [])) (hnl : '\n' ∉ literal.toList) (t : Tree)
    (source : String) :
    read t (key ++ " = " ++ literal) source true =
      ((t.set name value).1, (t.set name value).2.map fun e => ⟨source, 1, .tree e⟩) := by
  have hform := lineForm_literal hkey hlit
  rw [String.ofList_toList] at hform
  have hnot : '\n' ∉ (key ++ " = " ++ literal).toList := by simp [hkey.newline_not_mem, hnl]
  exact read_of_assignment hnot hform t source true

theorem Quoted.newline_not_mem_escape (c : Char) : '\n' ∉ escape c := by
  unfold escape
  split
  · decide
  · rename_i hc
    have hne : '\n' ≠ c := fun e => hc e.symm
    split
    · decide
    · split
      · decide
      · split <;> simp [hne]

/-- The literal that is made of a text stands on one line. -/
theorem Quoted.newline_not_mem_encode (value : List Char) : '\n' ∉ encode value := by
  simp [encode, newline_not_mem_escape]

/-- A document of a key, an equals sign and the literal that is made of a text writes the text, and fails as the write does. -/
theorem Document.read_encode {key name : String} (hkey : Spelling.Spells key name) (value : String) (t : Tree)
    (source : String) :
    read t (key ++ " = " ++ String.ofList (Quoted.encode value.toList)) source true =
      ((t.set name value).1, (t.set name value).2.map fun e => ⟨source, 1, .tree e⟩) := by
  have hlist := String.toList_ofList (l := Quoted.encode value.toList)
  refine read_literal hkey ?_ ?_ t source
  · have hdecode := Quoted.decode_encode value.toList []
    rw [List.append_nil] at hdecode
    rw [hlist]
    exact hdecode
  · rw [hlist]
    exact Quoted.newline_not_mem_encode value.toList

/-! ## Three channels -/

namespace Context

/-- A value that is written directly, by an option and by a line with a literal of the value, under any key that is accepted with
a name, the name itself or its flag without dashes: either all three succeed, the option answers nothing, and the trees are the
same; or each fails with the same error of the tree, and leaves everything as it is. -/
theorem channels_agree {key name value literal : String} (hkey : Spelling.canonicalize true key = .ok name)
    (hlit : Token.value true literal.toList = .ok (value.toList, [])) (hnl : '\n' ∉ literal.toList) (ctx : Context)
    (preamble : String) (width : Int) (source : String) :
    ∀ k ∈ [key, name, Spelling.withoutDashes (Spelling.toFlag name)],
      let direct := ctx.set name value
      let argued := ctx.readCommandLine ["--" ++ k ++ "=" ++ value] preamble width noPositionals ()
      let documented := Document.read ctx.tree (k ++ " = " ++ literal) source true
      (direct.2 = none ∧ argued.answer = .ok "" ∧ documented.2 = none ∧
          argued.context = direct.1 ∧ documented.1 = direct.1.tree) ∨
        ∃ e, direct.2 = some (.tree e) ∧ argued.answer = .error (.tree e) ∧ documented.2 = some ⟨source, 1, .tree e⟩ ∧
          direct.1 = ctx ∧ argued.context = ctx ∧ documented.1 = ctx.tree := by
  intro k hk direct argued documented
  have hspells : Spelling.Spells k name := by
    have hname := (Spelling.canonicalize_eq_ok_iff.mp hkey).isCanonical
    simp only [List.mem_cons, List.not_mem_nil, or_false] at hk
    rcases hk with rfl | rfl | rfl
    · exact Spelling.canonicalize_eq_ok_iff.mp hkey
    · exact hname.spells_self
    · exact Spelling.canonicalize_eq_ok_iff.mp hname.canonicalize_withoutDashes
  rw [show argued = _ from ctx.readCommandLine_option (.long hspells) preamble width,
    show documented = _ from Document.read_literal hspells hlit hnl ctx.tree source]
  cases hset : (ctx.tree.set name value).2 with
  | none => exact .inl ⟨congrArg (Option.map Failure.tree) hset, rfl, rfl, rfl, rfl⟩
  | some e =>
    have hctx : (ctx.set name value).1 = ctx := by
      have htree : (ctx.tree.set name value).1 = ctx.tree := Tree.set_eq_self (by simp [hset])
      exact congrArg (Context.mk ctx.registry) htree
    exact .inr ⟨e, congrArg (Option.map Failure.tree) hset, rfl, rfl, hctx, hctx, congrArg Context.tree hctx⟩

/-- A value with a quote under a key with a dash, over a tree where its name is free and over one where it is that of a
sub-tree. -/
theorem channels_agree_of_quote :
    let free := empty.after (.write _ (.set "A.B" "0"))
    let taken := free.after (.write _ (.set "UpwindWeight.C" "1"))
    let argument := "--upwind-weight=a\"b"
    let line := "upwind-weight = \"a\\\"b\""
    ((free.readCommandLine [argument] "" 80 noPositionals ()).context = (free.set "UpwindWeight" "a\"b").1 ∧
        (Document.read free.tree line "case.ini" true).1 = (free.set "UpwindWeight" "a\"b").1.tree) ∧
      (taken.readCommandLine [argument] "" 80 noPositionals ()).context = taken ∧
        (Document.read taken.tree line "case.ini" true).1 = taken.tree := by
  intro free taken argument line
  have hkey : Spelling.canonicalize true "upwind-weight" = .ok "UpwindWeight" := by decide +kernel
  have hlit : Token.value true "\"a\\\"b\"".toList = .ok ("a\"b".toList, []) := by decide +kernel
  have hfree : (free.set "UpwindWeight" "a\"b").2 = none := by decide +kernel
  have htaken : (taken.set "UpwindWeight" "a\"b").2 ≠ none := by decide +kernel
  have hagree := fun ctx => channels_agree hkey hlit (by decide) ctx "" 80 "case.ini" "upwind-weight" (by simp)
  refine ⟨?_, ?_⟩
  · obtain ⟨-, -, -, hargued, hdocumented⟩ | ⟨e, he, -⟩ := hagree free
    · exact ⟨hargued, hdocumented⟩
    · rw [hfree] at he
      cases he
  · obtain ⟨hnone, -⟩ | ⟨-, -, -, -, -, hargued, hdocumented⟩ := hagree taken
    · exact absurd hnone htaken
    · exact ⟨hargued, hdocumented⟩

end Context

end RunParams

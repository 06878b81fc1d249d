import RunParams.Proofs.DocumentRuns

/-!
# Errors of documents

An error names the first line at which reading fails. Its message starts with the name of the document and the number of that
line, unless a value could not be written to the tree: then it is the message of the tree alone. The tree that is left behind is
the one that the lines before that line make.
-/

namespace RunParams

/-! ## Messages -/

/-- What a message starts with that says where an error arose. -/
def placeOf (source : String) (line : Nat) : String :=
  s!"{source}:{line}: "

theorem append_three (place a b c : String) : place ++ a ++ b ++ c = place ++ (a ++ b ++ c) := by
  simp only [String.append_assoc]

theorem NameError.exists_message (e : NameError) (place : String) : ∃ rest, e.message place = place ++ rest := by
  cases e with
  | empty => exact ⟨_, rfl⟩
  | firstNotLetter key => exact ⟨_, append_three ..⟩
  | malformed key => exact ⟨_, append_three ..⟩

theorem QuoteError.exists_message (e : QuoteError) (place : String) : ∃ rest, e.message place = place ++ rest := by
  cases e with
  | notQuoted => exact ⟨_, rfl⟩
  | endsAfterBackslash => exact ⟨_, rfl⟩
  | unknownEscape c => exact ⟨_, append_three ..⟩
  | unclosed => exact ⟨_, rfl⟩

/-- Every message but that of the tree starts with the place. -/
theorem DocumentError.exists_message {e : DocumentError} (h : ∀ te, e.cause ≠ .tree te) :
    ∃ rest, e.message = placeOf e.source e.line ++ rest := by
  obtain ⟨source, line, cause⟩ := e
  cases cause with
  | badKey error => exact error.exists_message _
  | duplicate key => exact ⟨_, append_three (placeOf source line) ..⟩
  | notAssignment => exact ⟨_, rfl⟩
  | badQuote error => exact error.exists_message _
  | trailing text => exact ⟨_, append_three (placeOf source line) ..⟩
  | tree error => exact absurd rfl (h error)

/-- A place has two colons. -/
theorem two_le_count_placeOf (source : String) (line : Nat) : 2 ≤ (placeOf source line).toList.count ':' := by
  have hplace : placeOf source line = source ++ ":" ++ toString line ++ ": " := rfl
  have h1 : ":".toList.count ':' = 1 := rfl
  have h2 : ": ".toList.count ':' = 1 := rfl
  rw [hplace]
  simp only [String.toList_append, List.count_append]
  omega

example : placeOf "case.ini" 2 = "case.ini:2: " := by decide +kernel

/-- The message of a tree error has one colon if the path has none. -/
theorem TreeError.count_message {t : Tree} {path value : String} {e : TreeError} (h : (t.set path value).2 = some e)
    (hpath : ∀ n ∈ Spelling.segments path, ':' ∉ n.toList) : e.message.toList.count ':' = 1 := by
  have hp : path.toList.count ':' = 0 := by
    rw [List.count_eq_zero, ← dotted_segments path]
    intro hmem
    rcases mem_toList_dotted hmem with hdot | ⟨n, hn, hc⟩
    · exact absurd hdot (by decide)
    · exact hpath n hn hc
  rcases Tree.setFrom_error h with rfl | ⟨m, hm, rfl⟩
  · have h1 : "Cannot assign a value to '".toList.count ':' = 0 := by decide
    have h2 : "': it is a sub-tree".toList.count ':' = 1 := by decide
    have hmessage : (isSubTree path).message = "Cannot assign a value to '" ++ path ++ "': it is a sub-tree" := rfl
    rw [hmessage]
    simp only [String.toList_append, List.count_append]
    omega
  · rw [names_ofString] at hm
    have hm0 : m.toList.count ':' = 0 := List.count_eq_zero.mpr (hpath m hm)
    have h1 : "Cannot create sub-tree '".toList.count ':' = 0 := by decide
    have h2 : "' of '".toList.count ':' = 0 := by decide
    have h3 : "': it already holds a value".toList.count ':' = 1 := by decide
    have hmessage : (valueInTheWay m path).message =
      "Cannot create sub-tree '" ++ m ++ "' of '" ++ path ++ "': it already holds a value" := rfl
    rw [hmessage]
    simp only [String.toList_append, List.count_append]
    omega

namespace Document

/-! ## The first faulty line -/

/-- The text of the first lines of a text. -/
def firstLines (k : Nat) (text : String) : String :=
  String.ofList (Text.unlines ((Text.lines text.toList).take k))

/-- The lines of the first lines, of which there is at least one, if only an empty one. -/
theorem lines_firstLines (k : Nat) (text : String) :
    Text.lines (firstLines k text).toList = if k = 0 then [[]] else (Text.lines text.toList).take k := by
  rw [firstLines, String.toList_ofList]
  by_cases hk : k = 0
  · simp [hk, Text.unlines, Text.lines]
  · rw [if_neg hk]
    apply Text.lines_unlines
    · intro l hl
      exact not_mem_of_mem_splitOn (List.mem_of_mem_take hl)
    · simp [hk, Text.lines]

/-- An error names the first line that cannot be read after those before it. -/
theorem read_eq_some {t : Tree} {text source : String} {overwrite : Bool} {e : DocumentError}
    (h : (read t text source overwrite).2 = some e) :
    ∃ pre line post q, Text.lines text.toList = pre ++ line :: post ∧ Reads overwrite ⟨t, []⟩ pre q ∧
      (readLine overwrite q line).2 = some e.cause ∧ e.source = source ∧ e.line = pre.length + 1 := by
  obtain ⟨pre, line, post, q, hlines, hpre, hline, hsource, hn⟩ :=
    readLines_eq_some (Prod.ext rfl h : readLines source overwrite 1 ⟨t, []⟩ (Text.lines text.toList) = (_, some e))
  exact ⟨pre, line, post, q, hlines, hpre, hline, hsource, by omega⟩

/-- Fewer lines than an error names are read to their end. -/
theorem read_firstLines_eq_none {t : Tree} {text source : String} {overwrite : Bool} {e : DocumentError}
    (h : (read t text source overwrite).2 = some e) {k : Nat} (hk : k < e.line) :
    (read t (firstLines k text) source overwrite).2 = none := by
  obtain ⟨pre, line, post, q, hlines, hpre, -, -, hn⟩ := read_eq_some h
  rw [read, lines_firstLines]
  by_cases hk0 : k = 0
  · rw [if_pos hk0]
    rfl
  · obtain ⟨r, hr⟩ := hpre.take k
    have htake : (pre ++ line :: post).take k = pre.take k := List.take_append_of_le_length (by omega)
    rw [if_neg hk0, hlines, htake, readLines_eq_none_iff.mpr ⟨r, hr, rfl⟩]

/-- A line that cannot be read leaves the tree. -/
theorem readLine_tree_eq_self {overwrite : Bool} {p : Progress} {line : List Char} {cause : LineError}
    (h : (readLine overwrite p line).2 = some cause) : (readLine overwrite p line).1.tree = p.tree := by
  have hstep := readLine_step overwrite p line
  generalize readLine overwrite p line = out at h hstep
  cases hstep with
  | remark hform => rfl
  | @assign path value hform hnew =>
    have hfail : (write overwrite p.tree path value).2 ≠ none := by
      intro hnone
      rw [hnone] at h
      cases h
    exact write_eq_self hfail
  | refuse hcause hnone hsome => rfl

/-- Reading that fails leaves what the lines before the one that the error names have written. -/
theorem read_firstLines_pred {t u : Tree} {text source : String} {overwrite : Bool} {e : DocumentError}
    (h : read t text source overwrite = (u, some e)) :
    read t (firstLines (e.line - 1) text) source overwrite = (u, none) ∧
      read t (firstLines e.line text) source overwrite = (u, some e) := by
  obtain ⟨pre, line, post, q, hlines, hpre, hline, hsource, hn⟩ := read_eq_some (congrArg Prod.snd h)
  have htree := readLine_tree_eq_self hline
  have hq : ∀ post, readLines source overwrite 1 ⟨t, []⟩ (pre ++ line :: post) = (q.tree, some e) := by
    intro post
    rw [readLines_append hpre, readLines]
    generalize readLine overwrite q line = out at hline htree
    obtain ⟨r, cause⟩ := out
    obtain rfl : cause = some e.cause := hline
    dsimp only at htree ⊢
    rw [htree, ← hsource, show 1 + pre.length = e.line by omega]
  have hu : u = q.tree := by
    rw [read, hlines, hq] at h
    exact (Prod.mk.inj h).1.symm
  subst hu
  refine ⟨?_, ?_⟩
  · rw [read, lines_firstLines]
    split
    · -- Nothing is read before the first line.
      have hnil : pre = [] := List.eq_nil_of_length_eq_zero (by omega)
      subst hnil
      cases hpre
      rfl
    · rw [hlines, hn, Nat.add_sub_cancel, List.take_left]
      exact readLines_eq_none_iff.mpr ⟨q, hpre, rfl⟩
  · have htake : (pre ++ line :: post).take e.line = pre ++ [line] := by
      rw [List.take_append, List.take_of_length_le (by omega), hn]
      simp
    rw [read, lines_firstLines, if_neg (by omega), hlines, htake]
    exact hq []

/-- The lines up to the one that an error names are read with that error. -/
theorem read_firstLines_eq_some {t : Tree} {text source : String} {overwrite : Bool} {e : DocumentError}
    (h : (read t text source overwrite).2 = some e) : (read t (firstLines e.line text) source overwrite).2 = some e :=
  congrArg Prod.snd (read_firstLines_pred (Prod.ext rfl h)).2

/-- The first lines of a text assign what their forms say. -/
theorem assigns_firstLines {text : String} {pre post : List (List Char)} {es : List (Option (String × String))}
    (hlines : Text.lines text.toList = pre ++ post) (hes : List.Forall₂ LineForm pre es) :
    Assigns (firstLines pre.length text) es.reduceOption := by
  rw [Assigns, lines_firstLines, hlines, List.take_left]
  cases hes with
  | nil => exact ⟨[none], .cons (.remark (w := []) (fun c hc => by cases hc) (.inl rfl)) .nil, rfl⟩
  | cons h hs => exact ⟨_, .cons h hs, rfl⟩

/-- A line at which the tree refuses a value has the form of an assignment to a new path, and names that path. -/
theorem readLine_tree {overwrite : Bool} {p : Progress} {line : List Char} {te : TreeError}
    (h : (readLine overwrite p line).2 = some (.tree te)) :
    ∃ path value, LineForm line (some (path, value)) ∧ path ∉ p.seen ∧ (p.tree.set path value).2 = some te := by
  have hstep := readLine_step overwrite p line
  generalize readLine overwrite p line = out at h hstep
  cases hstep with
  | remark hform => cases h
  | @assign path value hform hnew =>
    refine ⟨path, value, hform, hnew, ?_⟩
    have hwrite : (write overwrite p.tree path value).2 = some te := by simpa using h
    unfold write at hwrite
    split at hwrite
    · exact hwrite
    · cases hwrite
  | refuse hcause hnone hsome =>
    cases h
    exact absurd rfl (hcause te)

/-- The message of an error starts with its place exactly when it is not that of the tree. -/
theorem read_message_iff {t : Tree} {text source : String} {overwrite : Bool} {e : DocumentError}
    (h : (read t text source overwrite).2 = some e) :
    (∃ rest, e.message = placeOf source e.line ++ rest) ↔ ∀ te, e.cause ≠ .tree te := by
  obtain ⟨pre, line, post, q, -, -, hline, hsource, -⟩ := read_eq_some h
  constructor
  · rintro ⟨rest, hrest⟩ te hte
    rw [hte] at hline
    obtain ⟨path, value, hform, -, hset⟩ := readLine_tree hline
    have hpath : ∀ n ∈ Spelling.segments path, ':' ∉ n.toList := by
      intro n hn hc
      cases hform with
      | assignment hw hk hkc hspells hrest => exact absurd ((hspells.isCanonical n hn).isAlphanum _ hc) (by decide)
    -- One colon is too few for a place, whatever the name of the document is.
    have hone := TreeError.count_message hset hpath
    have htwo := two_le_count_placeOf source e.line
    have hmessage : e.message = te.message := by rw [DocumentError.message, hte]
    rw [← hmessage, hrest, String.toList_append, List.count_append] at hone
    omega
  · intro hne
    rw [← hsource]
    exact DocumentError.exists_message hne

/-- The tree refuses a value exactly at a line that assigns one to a path that no line before assigns. -/
theorem read_cause_tree_iff {t : Tree} {text source : String} {overwrite : Bool} {e : DocumentError}
    (h : (read t text source overwrite).2 = some e) :
    (∃ te, e.cause = .tree te) ↔
      ∃ before line path value, Assigns (firstLines (e.line - 1) text) before ∧
        (Text.lines text.toList)[e.line - 1]? = some line ∧ LineForm line (some (path, value)) ∧ path ∉ before.map (·.1) := by
  obtain ⟨pre, line, post, q, hlines, hpre, hline, -, hn⟩ := read_eq_some h
  have hget : (pre ++ line :: post)[e.line - 1]? = some line := by
    rw [hn, Nat.add_sub_cancel, List.getElem?_append_right (Nat.le_refl _), Nat.sub_self]
    rfl
  obtain ⟨es, hes⟩ := reads_iff.mp hpre
  have hbefore : Assigns (firstLines (e.line - 1) text) es.reduceOption := by
    rw [hn, Nat.add_sub_cancel]
    exact assigns_firstLines hlines hes.forms
  have hfresh : ∀ path, path ∉ es.reduceOption.map (·.1) ↔ path ∉ q.seen := by
    intro path
    simp [hes.seen, keysOf]
  rw [hlines, hget]
  constructor
  · rintro ⟨te, hte⟩
    rw [hte] at hline
    obtain ⟨path, value, hform, hnew, -⟩ := readLine_tree hline
    exact ⟨_, line, path, value, hbefore, rfl, hform, (hfresh path).mpr hnew⟩
  · rintro ⟨before, line', path, value, hassigns, hl, hform, hnew⟩
    cases hl
    obtain rfl := hassigns.unique hbefore
    rw [hfresh] at hnew
    rw [readLine_of_assignment hform hnew] at hline
    obtain ⟨te, -, hte⟩ := Option.map_eq_some_iff.mp hline
    exact ⟨te, hte.symm⟩

/-- What reading a document fails at: the first line up to which it cannot be read. The message starts with the name of the
document and the number of that line, but for lines whose value could not be written: those lines have the form of an
assignment to a path that no line before assigns, and their message is that of the tree, which does not say where it arose. -/
theorem read_error {ctx : Context} {text source : String} {overwrite : Bool} {e : DocumentError}
    (h : (read ctx.tree text source overwrite).2 = some e) :
    e.source = source ∧ 0 < e.line ∧
      (∀ k < e.line, (read ctx.tree (firstLines k text) source overwrite).2 = none) ∧
      (read ctx.tree (firstLines e.line text) source overwrite).2 = some e ∧
      ((∃ rest, e.message = placeOf source e.line ++ rest) ↔ ∀ te, e.cause ≠ .tree te) ∧
      (∀ te, e.cause = .tree te → e.message = te.message) ∧
      ((∃ te, e.cause = .tree te) ↔
        ∃ before line path value, Assigns (firstLines (e.line - 1) text) before ∧
          (Text.lines text.toList)[e.line - 1]? = some line ∧ LineForm line (some (path, value)) ∧
          path ∉ before.map (·.1)) := by
  obtain ⟨pre, line, post, q, -, -, -, hsource, hn⟩ := read_eq_some h
  refine ⟨hsource, by omega, fun k hk => read_firstLines_eq_none h hk, read_firstLines_eq_some h, read_message_iff h, ?_,
    read_cause_tree_iff h⟩
  intro te hte
  rw [DocumentError.message, hte]

/-- A value stands in the way of the second line. -/
theorem read_error_of_value_in_the_way :
    (read Context.empty.tree "a=1\na.b=2\n" "case.ini" true).2 = some ⟨"case.ini", 2, .tree (.valueInTheWay "A" "A.B")⟩ ∧
      (read Context.empty.tree (firstLines 1 "a=1\na.b=2\n") "case.ini" true).2 = none := by
  have h : (read Context.empty.tree "a=1\na.b=2\n" "case.ini" true).2 =
      some ⟨"case.ini", 2, .tree (.valueInTheWay "A" "A.B")⟩ := by
    decide +kernel
  obtain ⟨-, -, hbefore, -⟩ := read_error h
  exact ⟨h, hbefore 1 (by decide)⟩

/-- The error of a value in the way does not start with its place. -/
theorem message_without_place :
    ∃ e, (read Context.empty.tree "a=1\na.b=2\n" "case.ini" true).2 = some e ∧
      (read Context.empty.tree "a=1" "case.ini" true).2 = none ∧
      (read Context.empty.tree "a=1\na.b=2" "case.ini" true).2 = some e ∧
      ¬∃ rest, e.message = placeOf "case.ini" 2 ++ rest := by
  refine ⟨⟨"case.ini", 2, .tree (.valueInTheWay "A" "A.B")⟩, by decide +kernel, by decide +kernel, by decide +kernel, ?_⟩
  rintro ⟨rest, h⟩
  have hhead := congrArg (·.toList.head?) h
  have hplace : (placeOf "case.ini" 2).toList = 'c' :: "ase.ini:2: ".toList := by decide +kernel
  have hmessage : (DocumentError.message ⟨"case.ini", 2, .tree (.valueInTheWay "A" "A.B")⟩).toList.head? = some 'C' := by
    decide +kernel
  simp only [String.toList_append, hplace, hmessage, List.cons_append, List.head?_cons] at hhead
  exact absurd hhead (by decide)

/-! ## What is left behind -/

/-- A document that cannot be read applies exactly the lines before the first one up to which it cannot be read: these are read to
their end, into the tree that is left behind, and with that line more, the error is the same. -/
theorem read_applies_lines_before {ctx : Context} {text source : String} {overwrite : Bool} {t : Tree} {e : DocumentError}
    (h : read ctx.tree text source overwrite = (t, some e)) :
    0 < e.line ∧ IsLeast {n | (read ctx.tree (firstLines n text) source overwrite).2 ≠ none} e.line ∧
      read ctx.tree (firstLines e.line text) source overwrite = (t, some e) ∧
      read ctx.tree (firstLines (e.line - 1) text) source overwrite = (t, none) := by
  have hsome : (read ctx.tree text source overwrite).2 = some e := congrArg Prod.snd h
  obtain ⟨hbefore, hline⟩ := read_firstLines_pred h
  obtain ⟨pre, line, post, q, -, -, -, -, hn⟩ := read_eq_some hsome
  refine ⟨by omega, ⟨?_, ?_⟩, hline, hbefore⟩
  · rw [Set.mem_ofPred_eq, hline]
    exact nofun
  · intro n hfail
    by_contra hlt
    exact hfail (read_firstLines_eq_none hsome (Nat.lt_of_not_le hlt))

/-- A value stands in the way at the third line, and so the fourth is not read. -/
theorem read_applies_two_lines :
    ∃ t, read Context.empty.tree "a=1\nb.c=2\na.d.e=3\nf=4" "case.ini" true =
        (t, some ⟨"case.ini", 3, .tree (.valueInTheWay "A" "A.D.E")⟩) ∧
      read Context.empty.tree (firstLines 2 "a=1\nb.c=2\na.d.e=3\nf=4") "case.ini" true = (t, none) ∧
      t.keys = ["A", "B.C"] := by
  refine ⟨.branch "B" (.leaves [("C", "2")]) (.leaves [("A", "1")]), ?_⟩
  have h : read Context.empty.tree "a=1\nb.c=2\na.d.e=3\nf=4" "case.ini" true =
      (.branch "B" (.leaves [("C", "2")]) (.leaves [("A", "1")]),
        some ⟨"case.ini", 3, .tree (.valueInTheWay "A" "A.D.E")⟩) := by
    decide +kernel
  obtain ⟨-, -, -, hbefore⟩ := read_applies_lines_before h
  exact ⟨h, hbefore, by decide +kernel⟩

end Document

end RunParams

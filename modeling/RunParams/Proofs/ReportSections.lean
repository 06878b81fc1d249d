import RunParams.Proofs.KeySpelling
import RunParams.Proofs.Lines
import RunParams.Proofs.TreeReplay

/-!
# Reading sectioned reports back

The sectioned report of a tree does not mark the end of a section. All the same, each leaf in it belongs to the last header above
it: every node writes its own leaves before the header of any sub-tree, at every depth.
-/

namespace RunParams

open Spelling (IsCanonical IsCanonicalPath)

namespace Ini

/-! ## Reading -/

/-- What a line of a sectioned report says. -/
inductive Row
  | header (name : String)
  | leaf (name value : String)
  deriving DecidableEq, Repr

/-- Reads a line: a header has its name between brackets, and any other line has a name in front of its first blank, and behind
this blank an equals sign and a value between quotes. -/
def readRow (line : List Char) : Option Row :=
  match line.dropPrefix? "[ ".toList with
  | some inner => (inner.dropSuffix? " ]".toList).map fun name => .header (String.ofList name)
  | none =>
    ((line.dropWhile (· ≠ ' ')).dropPrefix? " = \"".toList).bind fun quoted =>
      (quoted.dropSuffix? "\"".toList).map fun value =>
        .leaf (String.ofList (line.takeWhile (· ≠ ' '))) (String.ofList value)

/-- The key of a leaf below a header, if there is one yet. -/
def keyBelow (header? : Option String) (name : String) : String :=
  match header? with
  | none => name
  | some header => header ++ "." ++ name

/-- The key of every leaf with its value, where `header?` is the last header above the rows. -/
def pairs (header? : Option String) : List Row → List (String × String)
  | [] => []
  | .header name :: rows => pairs (some name) rows
  | .leaf name value :: rows => (keyBelow header? name, value) :: pairs header? rows

/-- Reads a text line by line. Each of its lines has a newline behind it, so that nothing stands behind the last newline. -/
def read (text : String) : Option (List (String × String)) :=
  ((Text.lines text.toList).dropSuffix? [[]]).bind fun lines => (lines.mapM readRow).map (pairs none)

/-! ## Rows as they are written -/

/-- The line of a row. -/
def Row.text : Row → List Char
  | header name => "[ ".toList ++ (name.toList ++ " ]".toList)
  | leaf name value => name.toList ++ (" = \"".toList ++ (value.toList ++ "\"".toList))

/-- The rows of leaves. -/
def leafRows (values : List (String × String)) : List Row :=
  values.map fun e => .leaf e.1 e.2

/-- A row can be read back: it stands on one line, and the name of a leaf is canonical. -/
def Row.Readable : Row → Prop
  | header name => '\n' ∉ name.toList
  | leaf name value => IsCanonical name ∧ '\n' ∉ value.toList

theorem dropPrefix?_append_left (beginning rest : List Char) : (beginning ++ rest).dropPrefix? beginning = some rest :=
  List.dropPrefix?_append_of_beq rest (beq_self_eq_true beginning)

theorem dropSuffix?_append_right {α : Type} [BEq α] [LawfulBEq α] (rest ending : List α) :
    (rest ++ ending).dropSuffix? ending = some rest :=
  List.dropSuffix?_eq_some_iff.mpr ⟨ending, rfl, beq_self_eq_true ending⟩

/-- The first blank behind a canonical name is that of the equals sign. -/
theorem span_name {name : String} (h : IsCanonical name) (rest : List Char) :
    let line := name.toList ++ (" = \"".toList ++ rest)
    line.takeWhile (· ≠ ' ') = name.toList ∧ line.dropWhile (· ≠ ' ') = " = \"".toList ++ rest := by
  intro line
  have hname : ∀ c ∈ name.toList, decide (c ≠ ' ') = true := by
    intro c hc
    rw [decide_eq_true_iff]
    rintro rfl
    exact h.not_mem (by decide) hc
  rw [List.takeWhile_append_of_pos hname, List.dropWhile_append_of_pos hname]
  simp

/-- A canonical name does not start like a header. -/
theorem dropPrefix?_bracket {name : String} (h : IsCanonical name) (rest : List Char) :
    (name.toList ++ rest).dropPrefix? "[ ".toList = none := by
  obtain ⟨c, s, hs, hc, -⟩ := h
  have hne : (c == '[') = false := by
    rw [beq_eq_false_iff_ne]
    rintro rfl
    exact absurd hc (by decide)
  rw [hs]
  simp [List.dropPrefix?, hne]

namespace Row.Readable

variable {r : Row}

theorem readRow (h : r.Readable) : readRow r.text = some r := by
  cases r with
  | header name =>
    rw [Ini.readRow, text, dropPrefix?_append_left]
    simp only [dropSuffix?_append_right, Option.map_some, String.ofList_toList]
  | leaf name value =>
    obtain ⟨hname, -⟩ := h
    obtain ⟨htake, hdrop⟩ := span_name hname (value.toList ++ "\"".toList)
    rw [Ini.readRow, text, dropPrefix?_bracket hname]
    simp only [htake, hdrop, dropPrefix?_append_left, dropSuffix?_append_right, Option.bind_some, Option.map_some,
      String.ofList_toList]

theorem newline_not_mem (h : r.Readable) : '\n' ∉ r.text := by
  cases r with
  | header name =>
    have hname : '\n' ∉ name.toList := h
    simp [text, hname]
  | leaf name value =>
    obtain ⟨hname, hvalue⟩ := h
    simp [text, hname.not_mem, hvalue]

end Row.Readable

/-- Rows as text, each with a newline behind it. -/
def text (rows : List Row) : List Char :=
  (rows.map Row.text).flatMap (· ++ ['\n'])

theorem text_append (rows more : List Row) : text (rows ++ more) = text rows ++ text more := by
  simp [text]

theorem text_cons (r : Row) (rows : List Row) : text (r :: rows) = r.text ++ '\n' :: text rows := by
  simp [text]

theorem mapM_readRow {rows : List Row} (h : ∀ r ∈ rows, r.Readable) : (rows.map Row.text).mapM readRow = some rows := by
  induction rows with
  | nil => rfl
  | cons r rows ih =>
    obtain ⟨hr, hmore⟩ := List.forall_mem_cons.mp h
    rw [List.map_cons, List.mapM_cons, hr.readRow, ih hmore]
    rfl

/-- Rows that can be read back one by one are read as the leaves among them, each below the last header above it. -/
theorem read_eq {report : String} {rows : List Row} (htext : report.toList = text rows) (h : ∀ r ∈ rows, r.Readable) :
    read report = some (pairs none rows) := by
  have hlines : Text.lines report.toList = rows.map Row.text ++ [[]] := by
    rw [htext, text, Text.lines_ended]
    intro l hl
    obtain ⟨r, hr, rfl⟩ := List.mem_map.mp hl
    exact (h r hr).newline_not_mem
  rw [read, hlines, dropSuffix?_append_right, Option.bind_some, mapM_readRow h, Option.map_some]

/-! ## Leaves below headers -/

theorem pairs_leafRows (header? : Option String) (values : List (String × String)) :
    pairs header? (leafRows values) = values.map fun e => (keyBelow header? e.1, e.2) := by
  induction values with
  | nil => rfl
  | cons e values ih =>
    rw [leafRows, List.map_cons, pairs, ← leafRows, ih, List.map_cons]

/-- Whatever rows are above a header, the leaves behind it are its own. -/
theorem pairs_append_section (header? : Option String) (rows : List Row) (name : String) (values : List (String × String)) :
    pairs header? (rows ++ .header name :: leafRows values) =
      pairs header? rows ++ values.map fun e => (name ++ "." ++ e.1, e.2) := by
  induction rows generalizing header? with
  | nil => exact pairs_leafRows (some name) values
  | cons r rows ih =>
    cases r with
    | header other => exact ih (some other)
    | leaf key value => exact congrArg _ (ih header?)

end Ini

namespace Tree

open Ini

/-! ## The rows of a report -/

/-- The rows of the sections of the sub-trees of the top node. -/
def sectionRows (lead : String) : Tree → List Row
  | leaves _ => []
  | branch name child rest =>
    .header (lead ++ name) :: leafRows child.values ++ child.sectionRows (lead ++ name ++ ".") ++ rest.sectionRows lead

theorem toList_leafLines (values : List (String × String)) : (leafLines values).toList = text (leafRows values) := by
  induction values with
  | nil => rfl
  | cons e values ih =>
    have hline : leafLines (e :: values) = e.1 ++ " = \"" ++ e.2 ++ "\"\n" ++ leafLines values := by
      rw [leafLines, List.map_cons, String.join_cons]
      rfl
    rw [hline, leafRows, List.map_cons, ← leafRows, text_cons, Row.text]
    simp [ih]

theorem toList_sections (lead : String) (t : Tree) : (t.sections lead).toList = text (t.sectionRows lead) := by
  induction t generalizing lead with
  | leaves values => rfl
  | branch name child rest ihc ihr =>
    rw [sections, sectionRows, text_append, text_append, text_cons, ← toList_leafLines]
    simp only [String.toList_append, ihc, ihr, Row.text, List.append_assoc]
    rfl

theorem toList_report (t : Tree) : (t.report "").toList = text (leafRows t.values ++ t.sectionRows "") := by
  rw [report, String.toList_append, toList_leafLines, toList_sections, text_append]

/-- Whatever rows are above the sections of a tree, the leaves in these are the ones below its sub-trees. -/
theorem pairs_append_sectionRows (header? : Option String) (rows : List Row) (lead : String) (t : Tree) :
    pairs header? (rows ++ t.sectionRows lead) =
      pairs header? rows ++ (t.subEntries.map assignment).map fun e => (lead ++ e.1, e.2) := by
  induction t generalizing rows lead with
  | leaves values => simp [sectionRows]
  | branch name child rest ihc ihr =>
    have hsplit : rows ++ (branch name child rest).sectionRows lead =
        rows ++ .header (lead ++ name) :: leafRows child.values ++ child.sectionRows (lead ++ name ++ ".") ++
          rest.sectionRows lead := by
      simp [sectionRows]
    rw [hsplit, ihr, ihc, pairs_append_section, subEntries_branch, List.map_append, map_assignment_entryBelow,
      assignments_eq_append child]
    simp [Function.comp_def, String.append_assoc]

/-- The leaves of a report are all leaves of the tree, each with its key. -/
theorem pairs_report (t : Tree) : pairs none (leafRows t.values ++ t.sectionRows "") = t.assignments := by
  rw [pairs_append_sectionRows, pairs_leafRows, assignments_eq_append]
  simp [keyBelow]

/-! ## Trees with canonical names -/

/-- All names on the way to a leaf are canonical, and its value stands on one line. -/
def ReadableLeaf (e : List String × String) : Prop :=
  (∀ n ∈ e.1, IsCanonical n) ∧ '\n' ∉ e.2.toList

theorem readable_leafRows {t : Tree} (h : ∀ e ∈ t.entries, ReadableLeaf e) : ∀ r ∈ leafRows t.values, r.Readable := by
  intro r hr
  obtain ⟨e, he, rfl⟩ := List.mem_map.mp hr
  obtain ⟨hnames, hvalue⟩ := h (ownEntry e) (List.mem_append_left _ (List.mem_map_of_mem he))
  exact ⟨hnames e.1 (by simp [ownEntry]), hvalue⟩

/-- Every sub-tree has a leaf below it, so that the names in the headers are among those on the way to leaves. -/
theorem readable_sectionRows {t : Tree} (ht : t.WellFormed) (h : ∀ e ∈ t.subEntries, ReadableLeaf e) {lead : String}
    (hlead : '\n' ∉ lead.toList) : ∀ r ∈ t.sectionRows lead, r.Readable := by
  induction t generalizing lead with
  | leaves values => simp [sectionRows]
  | branch name child rest ihc ihr =>
    obtain ⟨-, -, -, hne, hc, hr⟩ := ht
    have hbelow : ∀ e ∈ child.entries, ReadableLeaf (entryBelow name e) := by
      intro e he
      exact h _ (List.mem_append_left _ (List.mem_map_of_mem he))
    have hchild : ∀ e ∈ child.entries, ReadableLeaf e := by
      intro e he
      obtain ⟨hnames, hvalue⟩ := hbelow e he
      exact ⟨fun n hn => hnames n (List.mem_cons_of_mem _ hn), hvalue⟩
    have hname : '\n' ∉ (lead ++ name).toList := by
      obtain ⟨n, l, v, hl⟩ := hc.exists_hasLeaf hne
      have hcanonical : IsCanonical name := (hbelow _ (mem_entries.mpr hl)).1 name (List.mem_cons_self ..)
      rw [String.toList_append, List.mem_append, not_or]
      exact ⟨hlead, hcanonical.not_mem (by decide)⟩
    intro r hmem
    rw [sectionRows, List.cons_append, List.cons_append, List.mem_cons, List.mem_append, List.mem_append] at hmem
    rcases hmem with rfl | (hmem | hmem) | hmem
    · exact hname
    · exact readable_leafRows hchild r hmem
    · refine ihc hc (fun e he => hchild e (List.mem_append_right _ he)) ?_ r hmem
      rw [String.toList_append, List.mem_append, not_or]
      exact ⟨hname, by decide⟩
    · exact ihr hr (fun e he => h e (List.mem_append_right _ he)) hlead r hmem

/-- Reading the sectioned report of a reachable tree line by line, where each leaf belongs to the last header above it, gives just
the keys of the tree in their order, each with the value that the tree has for it, as long as all names are canonical and no value
has a newline. -/
theorem read_report {t : Tree} (h : t.Reachable) (hpaths : ∀ k ∈ t.keys, IsCanonicalPath k)
    (hvalues : ∀ k v, t.get? k = some v → '\n' ∉ v.toList) :
    ∃ found, Ini.read (t.report "") = some found ∧
      (found.map fun e => (e.1, some e.2)) = t.keys.map fun k => (k, t.get? k) := by
  have hw := h.wellFormed
  have hshown : ∀ e ∈ t.entries, ReadableLeaf e := by
    intro e he
    have hmem : assignment e ∈ t.assignments := List.mem_map_of_mem he
    have hget : t.get? (dotted e.1) = some e.2 := hw.mem_assignments_iff.mp hmem
    have hleaf := mem_entries.mp he
    have hpath := hpaths _ (hw.mem_keys_of_get? hget)
    rw [IsCanonicalPath, segments_dotted (hw.dotFree_of_hasLeaf hleaf) hleaf.ne_nil] at hpath
    exact ⟨hpath, hvalues _ _ hget⟩
  refine ⟨t.assignments, ?_, ?_⟩
  · rw [← pairs_report]
    refine read_eq t.toList_report fun r hr => ?_
    rcases List.mem_append.mp hr with hr | hr
    · exact readable_leafRows hshown r hr
    · exact readable_sectionRows hw (fun e he => hshown e (List.mem_append_right _ he)) (by decide) r hr
  · rw [← map_fst_assignments, List.map_map]
    refine List.map_congr_left fun e he => ?_
    rw [Function.comp_apply, hw.mem_assignments_iff.mp he]

/-- A tree with a sub-tree that has no leaves of its own, and with values that look like rows. -/
theorem read_report_of_three_leaves :
    let t := (((Tree.empty.set "Newton.Line.Search" "[ Grid ]").1.set "Grid.File" "a = \"b\"").1.set "Model" "").1
    t.report "" = "Model = \"\"\n[ Newton ]\n[ Newton.Line ]\nSearch = \"[ Grid ]\"\n[ Grid ]\nFile = \"a = \"b\"\"\n" ∧
      ∃ found, Ini.read (t.report "") = some found ∧
        (found.map fun e => (e.1, some e.2)) =
          [("Model", some ""), ("Newton.Line.Search", some "[ Grid ]"), ("Grid.File", some "a = \"b\"")] := by
  intro t
  have hreachable : t.Reachable := ((Tree.Reachable.empty.write (.set _ _)).write (.set _ _)).write (.set _ _)
  have hpaths : ∀ k ∈ t.keys, IsCanonicalPath k := by
    simp only [← Spelling.canonicalizePath_eq_self_iff]
    decide +kernel
  have hvalues : ∀ k v, t.get? k = some v → '\n' ∉ v.toList := by
    have hall : ∀ e ∈ t.assignments, '\n' ∉ e.2.toList := by decide +kernel
    exact fun k v hv => hall (k, v) (hreachable.wellFormed.mem_assignments_iff.mpr hv)
  have hkeys : (t.keys.map fun k => (k, t.get? k)) =
      [("Model", some ""), ("Newton.Line.Search", some "[ Grid ]"), ("Grid.File", some "a = \"b\"")] := by decide +kernel
  refine ⟨by decide +kernel, ?_⟩
  rw [← hkeys]
  exact read_report hreachable hpaths hvalues

end Tree

end RunParams

import RunParams.Proofs.Partition
import RunParams.Proofs.Wrapping
import RunParams.Usage

/-!
# The layout of usage messages

The lines of a usage message fit in the width of the terminal. What shows of the message is the same for all widths that leave
room for a description, and it has all that is known of each parameter that is listed.
-/

namespace RunParams

/-- A record is one of the sorted records exactly when it is registered. -/
theorem Registry.Valid.mem_sortedRecords {reg : Registry String} (h : reg.Valid) {r : Record} :
    r ∈ reg.sortedRecords ↔ r ∈ reg.records := by
  simp only [sortedRecords, List.mem_filterMap, mem_sortedNames]
  constructor
  · rintro ⟨n, -, hr⟩
    exact mem_of_find? hr
  · intro hr
    exact ⟨r.name, List.mem_map.mpr ⟨r, hr, rfl⟩, find?_of_mem h.nodup hr⟩

namespace Usage

open Text (lines)
open Wrap (breakLines visible visible_append)

/-! ## One parameter -/

/-- The placeholder for the value of a parameter, and how its default is shown: as a truth value, between quotes, or as its text. A
parameter that has no value has neither. -/
inductive ValueShown (r : Record) : (placeholder default : String) → Prop
  | boolean (h : r.kind = .boolean) : ValueShown r "BOOLEAN" (if r.default = "0" then "false" else "true")
  | string (h : r.kind = .string) : ValueShown r "STRING" ("\"" ++ r.default ++ "\"")
  | integer (h : r.kind = .integer) : ValueShown r "INTEGER" r.default
  | scalar (h : r.kind = .scalar) : ValueShown r "SCALAR" r.default
  | value (h : r.kind = .value) : ValueShown r "VALUE" r.default

/-- What is to be said of a parameter: its flag and what it is for, and if it has a value, the placeholder of the value and the
default, behind the full stop of the usage or one of its own. -/
inductive Says (flag : String) (r : Record) : String → Prop
  | flag (h : r.kind = .flag) : Says flag r (flag ++ r.usage)
  | value {placeholder default stop : String} (h : ValueShown r placeholder default)
      (hstop : stop = if r.usage.toList.getLast? = some '.' then "" else ".") :
      Says flag r (flag ++ "=" ++ placeholder ++ r.usage ++ stop ++ "Default:" ++ default)

/-- The value of a parameter that has one is shown by the kind of its type. -/
theorem valueShown {r : Record} (h : r.kind ≠ .flag) : ValueShown r r.kind.placeholder r.shownDefault := by
  unfold Record.shownDefault
  cases hk : r.kind with
  | string => exact .string hk
  | scalar => exact .scalar hk
  | integer => exact .integer hk
  | boolean =>
    simp only [beq_iff_eq]
    exact .boolean hk
  | value => exact .value hk
  | flag => exact absurd hk h

/-- Behind a gap a usage ends the line as it ends itself. -/
theorem getLast?_described (width : Nat) (s usage : String) :
    (padRight width (s ++ "  ") ++ usage).toList.getLast? = some '.' ↔ usage.toList.getLast? = some '.' := by
  have hgap : (padRight width (s ++ "  ")).toList.getLast? = some ' ' := by
    rw [padRight, String.toList_append, String.toList_ofList, List.getLast?_append, List.getLast?_replicate]
    split
    · simp
    · rfl
  rw [String.toList_append, List.getLast?_append, hgap]
  cases usage.toList.getLast? <;> simp

theorem visible_padRight (width : Nat) (s : String) : visible (padRight width s).toList = visible s.toList := by
  have hspaces : visible (List.replicate (width - s.length) ' ') = [] := by
    rw [visible, List.filter_eq_nil_iff]
    intro c hc
    rw [List.eq_of_mem_replicate hc]
    decide
  rw [padRight, String.toList_append, visible_append, String.toList_ofList, hspaces, List.append_nil]

/-- What shows of the line of a parameter is what is to be said of it. -/
theorem visible_entry (flag : String) (r : Record) :
    ∃ said, Says flag r said ∧ visible (entry flag r).toList = visible said.toList := by
  have hlead : visible "    ".toList = [] := by decide
  have hgap : visible "  ".toList = [] := by decide
  have hdefault : visible " Default: ".toList = visible "Default:".toList := by decide
  by_cases h : r.kind = .flag
  · have hentry : entry flag r = padRight descriptionColumn ("    " ++ flag ++ "  ") ++ r.usage := by
      rw [entry, h]
      rfl
    refine ⟨_, .flag h, ?_⟩
    rw [hentry]
    simp only [String.toList_append, visible_append, visible_padRight, hlead, hgap, List.nil_append, List.append_nil]
  · let stop := if r.usage.toList.getLast? = some '.' then "" else "."
    have hentry : entry flag r =
        padRight descriptionColumn ("    " ++ flag ++ "=" ++ r.kind.placeholder ++ "  ") ++ r.usage ++ stop ++ " Default: " ++
          r.shownDefault := by
      unfold entry
      split
      · rename_i hk
        exact absurd hk h
      · simp only [stop, ← getLast?_described descriptionColumn ("    " ++ flag ++ "=" ++ r.kind.placeholder) r.usage]
        rfl
    have hsaid : Says flag r (flag ++ "=" ++ r.kind.placeholder ++ r.usage ++ stop ++ "Default:" ++ r.shownDefault) :=
      .value (valueShown h) rfl
    refine ⟨_, hsaid, ?_⟩
    rw [hentry]
    simp only [String.toList_append, visible_append, visible_padRight, hlead, hgap, hdefault, List.nil_append, List.append_nil]

/-! ## The message -/

/-- The parameters that a usage message lists, each with its flag: the options for help, if there is a preamble, and the registered
parameters, with those that are hidden if `showAll` is set. -/
def listed (ctx : Context) (preamble : String) (showAll : Bool) : List (String × Record) :=
  (if preamble.isEmpty then [] else helpEntries) ++
    (ctx.registry.sortedRecords.filter fun r => showAll || !r.hidden).map fun r => (Spelling.toFlag r.name, r)

/-- A usage message has a line for each parameter that it lists. -/
theorem message_eq (ctx : Context) (preamble : String) (showAll : Bool) (width : Int) :
    message ctx preamble "" showAll width = breakLines preamble preambleIndent width ++ "\nRecognized options:\n" ++
      String.join ((listed ctx preamble showAll).map fun e => lineFor e.1 e.2 width ++ "\n") := by
  have hempty : "".isEmpty = true := rfl
  unfold message listed
  dsimp only
  rw [hempty, if_pos rfl, String.empty_append]
  cases preamble.isEmpty with
  | true =>
    rw [if_pos rfl, if_pos rfl, List.nil_append, List.nil_append, List.map_map, List.map_map]
    rfl
  | false =>
    rw [if_neg Bool.false_ne_true, if_neg Bool.false_ne_true, List.map_append, List.map_append, List.map_map, List.map_map,
      List.map_map]
    rfl

/-- A usage message is the preamble, and behind a newline texts that each end in one: a heading, and a line per parameter. -/
theorem toList_message (ctx : Context) (preamble : String) (showAll : Bool) (width : Int) :
    (message ctx preamble "" showAll width).toList =
      (breakLines preamble preambleIndent width).toList ++
        '\n' :: ("Recognized options:".toList ::
          (listed ctx preamble showAll).map fun e => (lineFor e.1 e.2 width).toList).flatMap (· ++ ['\n']) := by
  have hheading : "\nRecognized options:\n".toList = '\n' :: ("Recognized options:".toList ++ ['\n']) := by decide
  rw [message_eq, String.toList_append, String.toList_append, String.toList_join, List.flatMap_map, hheading,
    List.flatMap_cons, List.flatMap_map]
  simp

/-- The lines of a usage message. -/
theorem lines_message (ctx : Context) (preamble : String) (showAll : Bool) (width : Int) :
    lines (message ctx preamble "" showAll width).toList =
      lines (breakLines preamble preambleIndent width).toList ++ "Recognized options:".toList ::
        ((listed ctx preamble showAll).flatMap fun e => lines (lineFor e.1 e.2 width).toList) ++ [[]] := by
  have hheading : '\n' ∉ "Recognized options:".toList := by decide
  rw [toList_message, Text.lines_append_newline, Text.lines_flatMap_newline, List.flatMap_cons, List.flatMap_map,
    Text.lines_of_not_mem hheading, List.singleton_append, List.append_assoc]

/-- From 53 columns on there is room behind both indents. -/
theorem indents_lt {width : Int} (h : 53 ≤ width) :
    (0 ≤ preambleIndent ∧ preambleIndent < width) ∧ 0 ≤ descriptionIndent ∧ descriptionIndent < width := by
  unfold preambleIndent descriptionIndent
  omega

/-- The lines of a usage message fit in the width. -/
theorem length_le_of_mem_message (ctx : Context) (preamble : String) (showAll : Bool) {width : Int} (hwidth : 80 ≤ width) :
    ∀ l ∈ lines (message ctx preamble "" showAll width).toList, (l.length : Int) ≤ width := by
  obtain ⟨hpreamble, hdescription⟩ := @indents_lt width (by omega)
  have hheading : "Recognized options:".toList.length = 19 := by decide
  rw [lines_message]
  intro l hl
  simp only [List.mem_append, List.mem_cons, List.mem_flatMap, List.not_mem_nil, or_false] at hl
  rcases hl with (hl | rfl | ⟨e, -, hl⟩) | rfl
  · exact Wrap.length_le_of_mem_breakLines hpreamble preamble l hl
  · omega
  · exact Wrap.length_le_of_mem_breakLines hdescription _ l hl
  · simp only [List.length_nil]
    omega

/-- What shows of a usage message is what shows of the preamble, the heading, and the entry of each parameter. -/
theorem visible_message (ctx : Context) (preamble : String) (showAll : Bool) {width : Int} (hwidth : 53 ≤ width) :
    visible (message ctx preamble "" showAll width).toList =
      visible preamble.toList ++ visible "Recognized options:".toList ++
        (listed ctx preamble showAll).flatMap fun e => visible (entry e.1 e.2).toList := by
  obtain ⟨hpreamble, hdescription⟩ := indents_lt hwidth
  have hheading : visible "\nRecognized options:\n".toList = visible "Recognized options:".toList := by decide
  have hnewline : visible "\n".toList = [] := by decide
  have hline : ∀ e : String × Record, visible (lineFor e.1 e.2 width ++ "\n").toList = visible (entry e.1 e.2).toList := by
    intro e
    rw [String.toList_append, visible_append, hnewline, List.append_nil, lineFor, Wrap.visible_breakLines _ hdescription]
  rw [message_eq, String.toList_append, String.toList_append, visible_append, visible_append, hheading,
    Wrap.visible_breakLines _ hpreamble, String.toList_join, List.flatMap_map, Wrap.visible_flatMap]
  simp only [hline]

/-- Everything that is to be said of a listed parameter shows in the message. -/
theorem visible_infix_message {ctx : Context} {preamble : String} {showAll : Bool} {e : String × Record}
    (he : e ∈ listed ctx preamble showAll) {width : Int} (hwidth : 53 ≤ width) :
    ∃ said, Says e.1 e.2 said ∧ visible said.toList <:+: visible (message ctx preamble "" showAll width).toList := by
  obtain ⟨said, hsaid, hentry⟩ := visible_entry e.1 e.2
  obtain ⟨before, after, hsplit⟩ := List.append_of_mem he
  refine ⟨said, hsaid, ?_⟩
  rw [visible_message ctx preamble showAll hwidth, hsplit, List.flatMap_append, List.flatMap_cons, hentry, ← List.append_assoc]
  exact (List.prefix_append _ _).isInfix.trans (List.suffix_append _ _).isInfix

/-- The width at which usage messages are wrapped is at least 80. -/
theorem eighty_le_terminalWidth (isTerminal : Bool) (columns : Int) : 80 ≤ terminalWidth isTerminal columns := by
  cases isTerminal with
  | true => exact Int.le_max_left 80 columns
  | false =>
    have : (80 : Int) ≤ unlimitedWidth := by decide
    simpa [terminalWidth] using this

/-- No line of a usage message without an error is longer than the width at which it is wrapped, which is at least 80 whatever the
terminal is. At all widths that leave room for a description the same characters show, in the same order, and everything that is
to be said of a parameter is among them: its flag, the placeholder of its value, what it is for, and its default. -/
theorem message_layout (ctx : Context) (preamble : String) (showAll : Bool) :
    (∀ width : Int, 80 ≤ width → ∀ l ∈ lines (message ctx preamble "" showAll width).toList, (l.length : Int) ≤ width) ∧
      (∀ isTerminal columns, 80 ≤ terminalWidth isTerminal columns ∧
        ∀ l ∈ lines (message ctx preamble "" showAll (terminalWidth isTerminal columns)).toList,
          (l.length : Int) ≤ terminalWidth isTerminal columns) ∧
      (∀ w₁ w₂ : Int, 53 ≤ w₁ → 53 ≤ w₂ →
        visible (message ctx preamble "" showAll w₁).toList = visible (message ctx preamble "" showAll w₂).toList) ∧
      (ctx.Reachable → ∀ r ∈ ctx.registry.records, showAll = true ∨ r.hidden = false → ∀ width : Int, 53 ≤ width →
        ∃ said, Says (Spelling.toFlag r.name) r said ∧
          visible said.toList <:+: visible (message ctx preamble "" showAll width).toList) := by
  refine ⟨fun width hwidth => length_le_of_mem_message ctx preamble showAll hwidth, ?_, ?_, ?_⟩
  · intro isTerminal columns
    have hwidth := eighty_le_terminalWidth isTerminal columns
    exact ⟨hwidth, length_le_of_mem_message ctx preamble showAll hwidth⟩
  · intro w₁ w₂ h₁ h₂
    rw [visible_message ctx preamble showAll h₁, visible_message ctx preamble showAll h₂]
  · intro hreach r hr hshown width hwidth
    have hmem : (Spelling.toFlag r.name, r) ∈ listed ctx preamble showAll := by
      refine List.mem_append_right _ (List.mem_map.mpr ⟨r, List.mem_filter.mpr ⟨?_, ?_⟩, rfl⟩)
      · exact hreach.valid.registry.mem_sortedRecords.mpr hr
      · simpa using hshown
    exact visible_infix_message hmem hwidth

/-- A boolean parameter with a long usage that goes on after a newline, on two terminals. -/
theorem message_layout_of_long_usage :
    let weight : Declaration := ⟨"UpwindWeight", none, ⟨some (.bool true), none⟩, []⟩
    let r : Record := ⟨"UpwindWeight", some .bool, "The weight of the upwind node.\nIt is one or zero", "1", false⟩
    let ctx := Context.empty.after (.register (.declared weight) r.usage)
    (∀ l ∈ lines (message ctx "Usage: sim" "" false (terminalWidth true 40)).toList, l.length ≤ 80) ∧
      message ctx "Usage: sim" "" false 80 ≠ message ctx "Usage: sim" "" false 53 ∧
      visible (message ctx "Usage: sim" "" false 80).toList = visible (message ctx "Usage: sim" "" false 53).toList ∧
      "--upwind-weight=BOOLEANTheweightoftheupwindnode.Itisoneorzero.Default:true".toList <:+:
        visible (message ctx "Usage: sim" "" false 53).toList := by
  intro weight r ctx
  have hreach : ctx.Reachable := Context.Reachable.empty.after _
  obtain ⟨-, hfits, hsame, hsays⟩ := message_layout ctx "Usage: sim" false
  have hflag : Spelling.toFlag r.name = "--upwind-weight" := by decide +kernel
  have hrecords : ctx.registry.records = [r] := by decide +kernel
  obtain ⟨said, hsaid, hshown⟩ := hsays hreach r (by simp [hrecords]) (.inr rfl) 53 (by decide)
  rw [hflag] at hsaid
  refine ⟨?_, by decide +kernel, hsame 80 53 (by decide) (by decide), ?_⟩
  · intro l hl
    exact Int.ofNat_le.mp ((hfits true 40).2 l hl)
  · cases hsaid with
    | flag h => cases h
    | @value placeholder default stop h hstop =>
      cases h with
      | boolean h =>
        have hstop' : stop = "." := hstop.trans (by decide +kernel)
        have hsaid : visible ("--upwind-weight" ++ "=" ++ "BOOLEAN" ++ r.usage ++ "." ++ "Default:" ++ "true").toList =
            "--upwind-weight=BOOLEANTheweightoftheupwindnode.Itisoneorzero.Default:true".toList := by decide +kernel
        rw [hstop', if_neg (by decide), hsaid] at hshown
        exact hshown
      | string h => cases h
      | integer h => cases h
      | scalar h => cases h
      | value h => cases h

end Usage

end RunParams

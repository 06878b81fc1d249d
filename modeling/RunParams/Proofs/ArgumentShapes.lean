import Mathlib.Data.List.TakeWhile
import RunParams.Tool.Options

/-!
# What the tool takes its arguments for

An argument that does not start with a dash is an operand. One that does is an option where it spells or abbreviates one, and an
unknown option otherwise, if it is no negative number and has no blank. Operands are collected in runs, unknown options are left
over, and the option for help ends the reading.
-/

namespace RunParams.Tool.Grammar

variable {ι : Type} {g : Grammar ι}

/-- An argument that does not start with a dash is an operand. -/
theorem shape_of_operand {argument : String} (h : argument.toList.head? ≠ some '-') : g.shape argument = .ok .operand := by
  simp only [shape, h, ne_eq, not_false_eq_true, if_true]

theorem shapes_of_operands {arguments : List String} (h : ∀ a ∈ arguments, a.toList.head? ≠ some '-') :
    g.shapes arguments = .ok (arguments.map (·, .operand)) := by
  induction arguments with
  | nil => rfl
  | cons a arguments ih =>
    obtain ⟨ha, harguments⟩ := List.forall_mem_cons.mp h
    have hne : a ≠ "--" := by
      rintro rfl
      exact ha rfl
    rw [shapes, if_neg hne, shape_of_operand ha, ih harguments]
    rfl

/-- Operands without options between them are one run. -/
theorem readFrom_operands (hg : g.operands ≠ .command) (r : Reading ι) (run : List (String × Shape ι)) (arguments : List String) :
    g.readFrom r run false (arguments.map (·, .operand)) = .ok (g.endRun r (run ++ arguments.map (·, .operand))) := by
  induction arguments generalizing run with
  | nil => rw [List.map_nil, List.append_nil, readFrom]
  | cons a arguments ih =>
    rw [List.map_cons, readFrom]
    simp only [hg, false_and, if_false, Bool.false_eq_true]
    rw [ih, List.append_assoc, List.singleton_append]

theorem splitEquals_of_not_mem {s : List Char} (h : '=' ∉ s) : splitEquals s = (s, none) := by
  have hdrop : s.dropWhile (· != '=') = [] := by
    rw [List.dropWhile_eq_nil_iff]
    intro c hc
    simpa using fun e : c = '=' => h (e ▸ hc)
  rw [splitEquals, hdrop]

/-- An argument that looks like an option and can be none of them is an unknown option. -/
theorem shape_of_unknown {argument : String} (hdash : argument.toList.head? = some '-') (hlen : argument.toList.length ≠ 1)
    (hspelling : g.withSpelling? argument.toList = none) (hequals : '=' ∉ argument.toList)
    (hcandidates : g.candidates argument.toList = []) (hnumber : isNegativeNumber argument.toList = false)
    (hblank : ' ' ∉ argument.toList) : g.shape argument = .ok (.option ⟨none, false, none⟩) := by
  have hcontains : argument.toList.contains ' ' = false := by simpa using hblank
  simp only [shape, hdash, ne_eq, not_true_eq_false, if_false, hspelling, hlen, splitEquals_of_not_mem hequals, shape.other,
    hcandidates, hnumber, hcontains, Bool.or_self, Bool.false_eq_true]

theorem length_candidates_le (g : Grammar ι) (s : List Char) : (g.candidates s).length ≤ g.flags.length := by
  unfold candidates
  split
  · dsimp only
    split
    · rw [List.length_map]
      exact List.length_filter_le _ _
    · exact Nat.zero_le _
  · rw [List.length_map]
    exact List.length_filter_le _ _
  · exact Nat.zero_le _

/-- With one option at most no argument is ambiguous. -/
theorem exists_shape (hg : g.flags.length ≤ 1) (argument : String) : ∃ taken, g.shape argument = .ok taken := by
  have hother : ∀ s, ∃ taken, shape.other g argument s = .ok taken := by
    intro s
    have hlen := (g.length_candidates_le s).trans hg
    unfold shape.other
    match g.candidates s, hlen with
    | [], _ =>
      dsimp only
      split <;> exact ⟨_, rfl⟩
    | [c], _ => exact ⟨_, rfl⟩
    | _ :: _ :: _, hlen => exact absurd hlen (by simp)
  unfold shape
  dsimp only
  split
  · exact ⟨_, rfl⟩
  · split
    · exact ⟨_, rfl⟩
    · split
      · exact ⟨_, rfl⟩
      · split
        · split
          · exact ⟨_, rfl⟩
          · exact hother _
        · exact hother _

theorem exists_shapes (hg : g.flags.length ≤ 1) (arguments : List String) :
    ∃ shaped, g.shapes arguments = .ok shaped ∧ shaped.map (·.1) = arguments := by
  induction arguments with
  | nil => exact ⟨[], rfl, rfl⟩
  | cons a arguments ih =>
    rw [shapes]
    split
    · exact ⟨_, rfl, by simp [Function.comp_def]⟩
    · obtain ⟨taken, htaken⟩ := exists_shape hg a
      obtain ⟨shaped, hshaped, hmap⟩ := ih
      rw [htaken, hshaped]
      exact ⟨_, rfl, by rw [List.map_cons, hmap]⟩

/-- An unknown option is left over. -/
theorem readFrom_unknown (r : Reading ι) (argument : String) (rest : List (String × Shape ι)) :
    g.readFrom r [] false ((argument, .option ⟨none, false, none⟩) :: rest) =
      g.readFrom { r with extras := r.extras ++ [argument] } [] false rest := by
  rw [readFrom]
  simp [takeApart, add, Except.mapError, bind, Except.bind]

/-- The option for help ends the reading. -/
theorem readFrom_help {f : Flag ι} (hvalue : f.takesValue = false) (hhelp : g.isHelp f.meaning = true) (r : Reading ι)
    (argument : String) (short : Bool) (rest : List (String × Shape ι)) :
    g.readFrom r [] false ((argument, .option ⟨some f, short, none⟩) :: rest) = .error .help := by
  rw [readFrom]
  simp [takeApart, hvalue, add, hhelp, Except.mapError, bind, Except.bind]

/-- A dash before anything but a digit or a point does not start a number. -/
theorem isNegativeNumber_eq_false {c : Char} (hdigit : Text.digitValue? c = none) (hdot : c ≠ '.') (s : List Char) :
    isNegativeNumber ('-' :: c :: s) = false := by
  have hdrop : (c :: s).dropWhile (fun d => (Text.digitValue? d).isSome) = c :: s := by
    rw [List.dropWhile_cons_of_neg (by simp [hdigit])]
  simp only [isNegativeNumber, hdrop]
  split
  · rename_i h
    cases h
  · rename_i h
    exact absurd (List.cons.inj h).1 hdot
  · rfl

end RunParams.Tool.Grammar

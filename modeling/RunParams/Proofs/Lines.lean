import RunParams.Proofs.Paths
import RunParams.Text.Lines

/-!
# The lines of texts

A newline between two texts keeps their lines apart, so that the lines of a text that is put together are those of its parts.
-/

namespace RunParams.Text

theorem lines_ne_nil (s : List Char) : lines s ≠ [] :=
  List.splitOn_ne_nil '\n' s

/-- No line has a newline. -/
theorem not_mem_of_mem_lines {s l : List Char} (h : l ∈ lines s) : '\n' ∉ l :=
  not_mem_of_mem_splitOn h

/-- A text without newlines is its only line. -/
theorem lines_of_not_mem {s : List Char} (h : '\n' ∉ s) : lines s = [s] :=
  List.splitOn_eq_singleton h

/-- The lines of two texts with a newline between them. -/
theorem lines_append_newline (s t : List Char) : lines (s ++ '\n' :: t) = lines s ++ lines t :=
  List.splitOn_append_cons_self s t

/-- The lines of texts that each have a newline behind them. -/
theorem lines_flatMap_newline (texts : List (List Char)) :
    lines (texts.flatMap (· ++ ['\n'])) = texts.flatMap lines ++ [[]] := by
  induction texts with
  | nil => rfl
  | cons s texts ih =>
    rw [List.flatMap_cons, List.append_assoc, List.singleton_append, lines_append_newline, ih, List.flatMap_cons,
      List.append_assoc]

/-- Lines that each have a newline behind them are those of their text, with an empty line at the end. -/
theorem lines_ended {ls : List (List Char)} (h : ∀ l ∈ ls, '\n' ∉ l) : lines (ls.flatMap (· ++ ['\n'])) = ls ++ [[]] := by
  rw [lines_flatMap_newline]
  congr 1
  induction ls with
  | nil => rfl
  | cons l ls ih =>
    rw [List.flatMap_cons, lines_of_not_mem (h l (by simp)), ih fun m hm => h m (List.mem_cons_of_mem _ hm)]
    rfl

theorem unlines_cons {l : List Char} {ls : List (List Char)} (h : ls ≠ []) :
    unlines (l :: ls) = l ++ '\n' :: unlines ls := by
  rw [unlines, List.intercalate_cons_of_ne_nil h, List.append_assoc]
  rfl

/-- The lines of texts with newlines between them. -/
theorem lines_unlines_flatMap {texts : List (List Char)} (h : texts ≠ []) :
    lines (unlines texts) = texts.flatMap lines := by
  induction texts with
  | nil => exact absurd rfl h
  | cons s texts ih =>
    by_cases hnil : texts = []
    · simp [hnil, unlines]
    · rw [unlines_cons hnil, lines_append_newline, ih hnil, List.flatMap_cons]

/-- The text of some lines and then some more has a newline between the two texts. -/
theorem unlines_append {ms ns : List (List Char)} (hms : ms ≠ []) (hns : ns ≠ []) :
    unlines (ms ++ ns) = unlines ms ++ '\n' :: unlines ns := by
  induction ms with
  | nil => exact absurd rfl hms
  | cons m ms ih =>
    by_cases hnil : ms = []
    · rw [hnil, List.singleton_append, unlines_cons hns]
      simp [unlines]
    · rw [List.cons_append, unlines_cons (by simp [hnil]), ih hnil, unlines_cons hnil, List.append_assoc,
        List.cons_append]

/-- Texts that consist of lines make a text of all those lines. -/
theorem unlines_map_unlines {α : Type} {f : α → List (List Char)} (hf : ∀ a, f a ≠ []) (l : List α) :
    unlines (l.map fun a => unlines (f a)) = unlines (l.flatMap f) := by
  induction l with
  | nil => rfl
  | cons a l ih =>
    by_cases hnil : l = []
    · simp [hnil, unlines]
    · have hne : l.flatMap f ≠ [] := by
        obtain ⟨b, m, rfl⟩ := List.exists_cons_of_ne_nil hnil
        simp [hf b]
      rw [List.map_cons, unlines_cons (by simpa using hnil), ih, List.flatMap_cons, unlines_append (hf a) hne]

end RunParams.Text

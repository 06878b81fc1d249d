/-!
# Lines

A text is its lines with newlines between them. Texts from files may end their lines in two other ways, which are unified first.
-/

namespace RunParams.Text

/-- The lines of a text. Only the newline ends a line. -/
def lines (s : List Char) : List (List Char) :=
  s.splitOn '\n'

/-- The text with the given lines. -/
def unlines (ls : List (List Char)) : List Char :=
  ['\n'].intercalate ls

/-- Writes every line end, be it `\r\n`, a lone `\r` or `\n`, as `\n`. -/
def unifyNewlines : List Char → List Char
  | [] => []
  | '\r' :: '\n' :: s => '\n' :: unifyNewlines s
  | c :: s => (if c = '\r' then '\n' else c) :: unifyNewlines s

/-- A text is made of its lines. -/
theorem unlines_lines (s : List Char) : unlines (lines s) = s :=
  List.intercalate_splitOn '\n'

/-- Lines without newlines are the lines of their text. -/
theorem lines_unlines {ls : List (List Char)} (h : ∀ l ∈ ls, '\n' ∉ l) (hne : ls ≠ []) : lines (unlines ls) = ls :=
  List.splitOn_intercalate '\n' h hne

end RunParams.Text

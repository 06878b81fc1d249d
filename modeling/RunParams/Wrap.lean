import RunParams.Text.Lines

/-!
# Wrapping

A line that is too long is broken at its last break character within the limit, which is dropped, or else at the limit. The
lines that continue it are indented. Newlines of the text stay where they are.
-/

namespace RunParams.Wrap

/-- Whether a line may be broken at a character. -/
def isBreak (c : Char) : Bool :=
  c == ' ' || c == '\t' || c == '\r' || c == '\x0c' || c == '\x0b'

/-- The last position up to `limit` at which a line may be broken. -/
def lastBreak? : (limit : Nat) → List Char → Option Nat
  | _, [] => none
  | 0, c :: _ => if isBreak c then some 0 else none
  | limit + 1, c :: s =>
    match lastBreak? limit s with
    | some i => some (i + 1)
    | none => if isBreak c then some 0 else none

/-- Cuts a line after at most `avail` characters: at the last break character that leaves something before it, or else there. -/
def cut (avail : Nat) (line : List Char) : List Char × List Char :=
  match lastBreak? (avail - 1) line.tail with
  | some i => (line.take (i + 1), line.drop (i + 2))
  | none => (line.take avail, line.drop avail)

/-- What a cut leaves is shorter. -/
theorem length_cut_snd_lt {avail : Nat} {line : List Char} (ha : 0 < avail) (hl : line ≠ []) :
    (cut avail line).2.length < line.length := by
  have hpos : 0 < line.length := List.length_pos_iff.2 hl
  unfold cut
  split <;> simp only [List.length_drop] <;> omega

/-- The room for characters between a column and the width, one at least. -/
def room (width column : Int) : Nat :=
  max 1 (width - column).toNat

/-- The room is never empty. -/
theorem room_pos (width column : Int) : 0 < room width column := by
  unfold room
  omega

/-- The pieces of a line that starts in a column; each further piece starts in the column `indent`. An empty line that is too
long nevertheless has room after the indent. -/
def pieces (indent width column : Int) (line : List Char) : List (List Char) :=
  if column + line.length ≤ width then [line]
  else if line = [] then [[], []]
  else
    (cut (room width column) line).1 :: pieces indent width indent (cut (room width column) line).2
termination_by line.length
decreasing_by exact length_cut_snd_lt (room_pos width column) ‹_›

/-- A wrapped line: its pieces, each further one on a line of its own behind the indent. -/
def wrapLine (indent width : Int) (line : List Char) : List Char :=
  ('\n' :: List.replicate indent.toNat ' ').intercalate (pieces indent width 0 line)

/-- A text with each of its lines wrapped. -/
def breakLines (text : String) (indent width : Int) : String :=
  String.ofList (Text.unlines ((Text.lines text.toList).map (wrapLine indent width)))

end RunParams.Wrap

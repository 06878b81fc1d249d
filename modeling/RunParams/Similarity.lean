import RunParams.Suggestion
import RunParams.Text.Blank

/-!
# Similarity

A scorer that looks at two texts as they stand, as a part of one another, and as bags of words. Its scores rest on the length of
their longest common subsequence.
-/

namespace RunParams.Similarity

/-- The row of common-subsequence lengths that adding a character gives: `above` is the row before, `corner` and `left` the
entries diagonally above and to the left of its first. -/
def nextRow (c : Char) : (b : List Char) → (above : List Nat) → (corner left : Nat) → List Nat
  | d :: b, up :: above, corner, left =>
    let entry := if c = d then corner + 1 else max up left
    entry :: nextRow c b above up entry
  | _, _, _, _ => []

/-- The length of a longest common subsequence. -/
def common (a b : List Char) : Nat :=
  let row := a.foldl (fun row c => nextRow c b row 0 0) (b.map fun _ => 0)
  row.getLast?.getD 0

/-- The number of insertions and deletions that lead from one text to the other. -/
def distance (a b : List Char) : Nat :=
  a.length + b.length - 2 * common a b

/-- The score of two texts as they stand. -/
def ratio (a b : List Char) : Float :=
  let n := a.length + b.length
  if n = 0 then 100 else 100 * (1 - (distance a b).toFloat / n.toFloat)

/-- The largest of the scores, or zero. -/
def best (scores : List Float) : Float :=
  scores.foldl (fun x y => if x < y then y else x) 0

/-- The windows of a text for a pattern of length `n`: its substrings of that length, and its shorter prefixes and suffixes. -/
def windows (n : Nat) (s : List Char) : List (List Char) :=
  (List.range n).map s.take
    ++ (List.range (s.length + 1 - n)).map (fun i => (s.drop i).take n)
    ++ (List.range n).map (fun k => s.drop (s.length - k))

/-- The best score of a pattern with a window of a text. -/
def windowRatio (pattern s : List Char) : Float :=
  best ((windows pattern.length s).map (ratio pattern))

/-- The score of the shorter text as a part of the longer. -/
def partialRatio (a b : List Char) : Float :=
  if a = [] ∨ b = [] then (if a = b then 100 else 0)
  else if a.length < b.length then windowRatio a b
  else if b.length < a.length then windowRatio b a
  else best [windowRatio a b, windowRatio b a]

/-- Words in ascending order, with a space between neighbours. -/
def sortedJoin (ws : List (List Char)) : List Char :=
  [' '].intercalate (ws.mergeSort fun a b => decide (String.ofList a ≤ String.ofList b))

/-- The score of two texts with their words sorted. -/
def sortedRatio (a b : List Char) : Float :=
  ratio (sortedJoin (Text.words a)) (sortedJoin (Text.words b))

/-- Two texts as sets of words: the words of both, those of the first alone, and those of the second alone. -/
structure WordSets where
  shared : List (List Char)
  onlyFirst : List (List Char)
  onlySecond : List (List Char)

/-- The sets of words of two texts. -/
def wordSets (a b : List Char) : WordSets :=
  let as := (Text.words a).eraseDups
  let bs := (Text.words b).eraseDups
  ⟨as.filter bs.contains, as.filter (!bs.contains ·), bs.filter (!as.contains ·)⟩

/-- The score of two texts as sets of words. -/
def setRatio (a b : List Char) : Float :=
  if Text.words a = [] ∨ Text.words b = [] then 0
  else
    let sets := wordSets a b
    if sets.shared ≠ [] ∧ (sets.onlyFirst = [] ∨ sets.onlySecond = []) then 100
    else
      let x := sortedJoin sets.onlyFirst
      let y := sortedJoin sets.onlySecond
      let n := (sortedJoin sets.shared).length
      let e := if n = 0 then 0 else 1
      let m := n + e + x.length
      let k := n + e + y.length
      let score (d total : Nat) : Float := 100 - 100 * d.toFloat / total.toFloat
      best (score (distance x y) (m + k)
        :: if n = 0 then [] else [score (e + x.length) (n + m), score (e + y.length) (n + k)])

/-- The score of two texts by the parts that their words have in common. -/
def partialWordRatio (a b : List Char) : Float :=
  let sets := wordSets a b
  if sets.shared ≠ [] then 100
  else best [partialRatio (sortedJoin (Text.words a)) (sortedJoin (Text.words b)),
    partialRatio (sortedJoin sets.onlyFirst) (sortedJoin sets.onlySecond)]

/-- The score of two texts: the plain score or a scaled one of the others, whichever is best. Parts count only when one text is
at least half as long again as the other, and for less when it is more than eight times as long. -/
def score (a b : List Char) : Float :=
  if a = [] ∨ b = [] then 0
  else
    let longer := max a.length b.length
    let shorter := min a.length b.length
    if 2 * longer < 3 * shorter then best [ratio a b, best [sortedRatio a b, setRatio a b] * 0.95]
    else
      let scale : Float := if longer ≤ 8 * shorter then 0.9 else 0.6
      best [ratio a b, partialRatio a b * scale, partialWordRatio a b * 0.95 * scale]

/-- The scorer of texts. -/
def scorer : Suggestion.Scorer :=
  fun a b => score a.toList b.toList

end RunParams.Similarity

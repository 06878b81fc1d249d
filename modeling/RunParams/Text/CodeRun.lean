/-!
# Runs of code points

A character class is a list of runs: the code points `first`, `first + step`, … up to `last`. Alphabets in which capitals and
small letters alternate are runs of step two.
-/

namespace RunParams.Text

/-- The code points `first`, `first + step`, `first + 2 * step`, … that are at most `last`. -/
structure CodeRun where
  first : Nat
  last : Nat
  step : Nat

/-- Whether a code point lies on the run. -/
def CodeRun.has (r : CodeRun) (n : Nat) : Bool :=
  r.first ≤ n && n ≤ r.last && (n - r.first) % r.step == 0

/-- Whether a code point lies in one of the closed ranges. -/
def inRanges (ranges : List (Nat × Nat)) (n : Nat) : Bool :=
  ranges.any fun r => r.1 ≤ n && n ≤ r.2

/-- A code point is on a run exactly when it is a whole number of steps away from the start and not past the end. -/
theorem CodeRun.has_iff {r : CodeRun} {n : Nat} :
    r.has n = true ↔ r.first ≤ n ∧ n ≤ r.last ∧ (n - r.first) % r.step = 0 := by
  simp [CodeRun.has, and_assoc]

/-- A code point is in a list of ranges exactly when one of them holds it. -/
theorem inRanges_iff {ranges : List (Nat × Nat)} {n : Nat} :
    inRanges ranges n = true ↔ ∃ r ∈ ranges, r.1 ≤ n ∧ n ≤ r.2 := by
  simp [inRanges]

end RunParams.Text

import RunParams.Proofs.Wrapping

/-!
# The loop that wraps a line

A line is wrapped by a loop: as long as what is left of it reaches beyond the width, a piece is cut off, and the rest goes on in
the column of the indent. Where the indent lies within the width, which may be negative, the loop ends with the pieces of the
line. A turn on an empty line leaves no less of it, but is the last one, since an empty line fits in that column. Where the
indent lies beyond the width, the loop goes on for ever on each line that does not fit.
-/

namespace RunParams.Wrap

open Text (lines)

/-! ## Turns -/

/-- A line on its way through the loop: the pieces cut off it, what is left of it, and the column in which that starts. -/
structure Progress where
  cutOff : List (List Char)
  left : List Char
  column : Int

/-- A line before the first turn. -/
def Progress.start (line : List Char) : Progress :=
  ⟨[], line, 0⟩

/-- One turn of the loop, whether or not anything is left to cut off. -/
def Progress.turn (indent width : Int) (s : Progress) : Progress :=
  ⟨s.cutOff ++ [(cut (room width s.column) s.left).1], (cut (room width s.column) s.left).2, indent⟩

/-- The loop goes from `s` to `t` in a number of turns, and ends there. -/
inductive Ends (indent width : Int) : (s : Progress) → (turns : Nat) → (t : Progress) → Prop
  | fits {s : Progress} (h : s.column + s.left.length ≤ width) : Ends indent width s 0 s
  | turn {s t : Progress} {n : Nat} (h : width < s.column + s.left.length)
      (hrest : Ends indent width (s.turn indent width) n t) : Ends indent width s (n + 1) t

/-- Nothing is cut off an empty line. -/
@[simp]
theorem cut_nil (avail : Nat) : cut avail [] = ([], []) := by
  simp [cut, lastBreak?]

variable {indent width : Int} {s t : Progress} {n : Nat}

/-- A turn leaves less of a line that is not empty. -/
theorem Progress.length_turn_lt (h : s.left ≠ []) : (s.turn indent width).left.length < s.left.length :=
  length_cut_snd_lt (room_pos width s.column) h

theorem Progress.length_turn_le : (s.turn indent width).left.length ≤ s.left.length := by
  by_cases h : s.left = []
  · simp [turn, h]
  · exact Nat.le_of_lt (length_turn_lt h)

/-- An empty line fits in a column within the width. -/
theorem Progress.left_ne_nil (hcolumn : s.column ≤ width) (h : width < s.column + s.left.length) : s.left ≠ [] := by
  intro hnil
  rw [hnil, List.length_nil] at h
  omega

/-! ## The end of the loop -/

/-- From a column within the width on, every turn leaves less of the line, so that there are no more turns than characters. -/
theorem exists_ends_of_column (hindent : indent ≤ width) (hcolumn : s.column ≤ width) :
    ∃ n ≤ s.left.length, ∃ t, Ends indent width s n t := by
  -- the induction is on the length of what is left; a turn moves it to the indent, which is a column within the width too
  induction hlen : s.left.length using Nat.strongRecOn generalizing s with
  | ind len ih =>
    by_cases hfits : s.column + s.left.length ≤ width
    · exact ⟨0, Nat.zero_le len, s, .fits hfits⟩
    · have hlong : width < s.column + s.left.length := Int.lt_of_not_ge hfits
      have hless : (s.turn indent width).left.length < len := by
        rw [← hlen]
        exact Progress.length_turn_lt (Progress.left_ne_nil hcolumn hlong)
      obtain ⟨n, hn, t, hends⟩ := ih _ hless hindent rfl
      exact ⟨n + 1, by omega, t, .turn hlong hends⟩

/-- A line that starts beyond the width may take one turn more, after which it goes on at the indent. -/
theorem exists_ends (hindent : indent ≤ width) (s : Progress) : ∃ n ≤ s.left.length + 1, ∃ t, Ends indent width s n t := by
  by_cases hfits : s.column + s.left.length ≤ width
  · exact ⟨0, Nat.zero_le _, s, .fits hfits⟩
  · obtain ⟨n, hn, t, hends⟩ := @exists_ends_of_column indent width (s.turn indent width) hindent hindent
    have hle : (s.turn indent width).left.length ≤ s.left.length := Progress.length_turn_le
    exact ⟨n + 1, by omega, t, .turn (Int.lt_of_not_ge hfits) hends⟩

/-- From an indent beyond the width on, the loop does not end. -/
theorem Ends.indent_le (h : Ends indent width s n t) (hcolumn : s.column = indent) : indent ≤ width := by
  induction h with
  | fits h => omega
  | turn _ _ ih => exact ih rfl

/-- The loop ends on a line exactly when the indent lies within the width or the line fits as it is. -/
theorem exists_ends_iff {line : List Char} :
    (∃ n t, Ends indent width (.start line) n t) ↔ indent ≤ width ∨ (line.length : Int) ≤ width := by
  constructor
  · rintro ⟨n, t, hends⟩
    cases hends with
    | fits h => exact .inr (by simpa [Progress.start] using h)
    | turn _ hrest => exact .inl (hrest.indent_le rfl)
  · rintro (hindent | hfits)
    · obtain ⟨n, -, t, hends⟩ := exists_ends hindent (.start line)
      exact ⟨n, t, hends⟩
    · exact ⟨0, .start line, .fits (by simpa [Progress.start] using hfits)⟩

/-! ## The pieces -/

/-- Where the loop ends, it has added the pieces of what was left of the line. -/
theorem Ends.pieces_eq (h : Ends indent width s n t) :
    t.cutOff ++ [t.left] = s.cutOff ++ pieces indent width s.column s.left := by
  induction h with
  | fits h => rw [pieces_of_fits h]
  | @turn s t n h hrest ih =>
    have hturn : s.cutOff ++ pieces indent width s.column s.left =
        (s.turn indent width).cutOff ++ pieces indent width indent (s.turn indent width).left := by
      rw [pieces, if_neg (by omega)]
      by_cases hnil : s.left = []
      · -- an empty line has a second piece because the loop ends after this turn
        have hfits : indent + ([] : List Char).length ≤ width := by simpa using hrest.indent_le rfl
        rw [if_pos hnil]
        simp [Progress.turn, hnil, pieces_of_fits hfits]
      · rw [if_neg hnil]
        simp [Progress.turn]
    rw [hturn]
    exact ih

/-- If the indent does not exceed the width, the loop ends on every line of a text with the pieces of that line, and takes at
most one turn more than the line has characters. -/
theorem breakLines_ends (text : String) (h : indent ≤ width) :
    ∀ line ∈ lines text.toList, ∃ n ≤ line.length + 1, ∃ t, Ends indent width (.start line) n t ∧
      t.cutOff ++ [t.left] = pieces indent width 0 line := by
  intro line _
  obtain ⟨n, hn, t, hends⟩ := exists_ends h (.start line)
  exact ⟨n, hn, t, hends, hends.pieces_eq⟩

/-- A line with a break and an empty line, with an indent and a width that are negative: the empty line takes a turn too. -/
theorem breakLines_ends_of_negative_width :
    (∃ n ≤ 5, ∃ t, Ends (-3) (-1) (.start "ab c".toList) n t ∧ t.cutOff ++ [t.left] = ["a".toList, "b".toList, "c".toList]) ∧
      ∃ n ≤ 1, ∃ t, Ends (-3) (-1) (.start []) n t ∧ t.cutOff ++ [t.left] = [[], []] := by
  have hends := breakLines_ends "ab c\n" (by decide : (-3 : Int) ≤ -1)
  have hword : pieces (-3) (-1) 0 "ab c".toList = ["a".toList, "b".toList, "c".toList] := by decide +kernel
  have hempty : pieces (-3) (-1) 0 [] = [[], []] := by decide +kernel
  rw [← hword, ← hempty]
  exact ⟨hends "ab c".toList (by decide), hends [] (by decide)⟩

end RunParams.Wrap

import RunParams.Proofs.Lines
import RunParams.Wrap

/-!
# Wrapped lines

Wrapping cuts a line that is too long into pieces. Each piece fits behind its indent, and nothing is lost between two of them but
the break character at which the line was cut. So the lines of a wrapped text all fit, and wrapping it again changes nothing.
-/

namespace RunParams.Wrap

open Text (lines unlines)

/-! ## Cuts -/

/-- No break is found exactly when there is none up to the limit. -/
theorem lastBreak?_eq_none {limit : Nat} {s : List Char} (h : lastBreak? limit s = none) :
    ∀ c ∈ s.take (limit + 1), isBreak c = false := by
  fun_induction lastBreak? limit s with
  | case1 => simp
  | case2 => cases h
  | case3 c s hc => simpa using hc
  | case4 => cases h
  | case5 => cases h
  | case6 limit c s hnone hc ih =>
    intro d hd
    rcases List.mem_cons.mp hd with rfl | hd
    · simpa using hc
    · exact ih hnone d hd

/-- The break that is found is the last one up to the limit. -/
theorem lastBreak?_eq_some {limit i : Nat} {s : List Char} (h : lastBreak? limit s = some i) :
    ∃ before c after, s = before ++ c :: after ∧ before.length = i ∧ i ≤ limit ∧ isBreak c = true ∧
      ∀ d ∈ after.take (limit - i), isBreak d = false := by
  fun_induction lastBreak? limit s generalizing i with
  | case1 => cases h
  | case2 c s hc =>
    cases h
    exact ⟨[], c, s, rfl, rfl, Nat.le_refl 0, hc, by simp⟩
  | case3 => cases h
  | case4 limit c s k hk ih =>
    cases h
    obtain ⟨before, d, after, rfl, hlen, hle, hd, hlast⟩ := ih hk
    refine ⟨c :: before, d, after, rfl, by simp [hlen], by omega, hd, ?_⟩
    rwa [Nat.succ_sub_succ]
  | case5 limit c s hnone hc =>
    cases h
    exact ⟨[], c, s, rfl, rfl, by omega, hc, lastBreak?_eq_none hnone⟩
  | case6 => cases h

/-- How a line that is too long is cut: at the last break character that leaves something before it and lies within the limit,
or at the limit if there is none. -/
inductive Cut (avail : Nat) : (line piece rest : List Char) → Prop
  | atBreak {piece rest : List Char} {c : Char} (hpiece : piece ≠ []) (hlen : piece.length ≤ avail) (hc : isBreak c = true)
      (hlast : ∀ d ∈ rest.take (avail - piece.length), isBreak d = false) : Cut avail (piece ++ c :: rest) piece rest
  | atLimit {piece rest : List Char} (hlen : piece.length = avail)
      (hnone : ∀ d ∈ ((piece ++ rest).take (avail + 1)).tail, isBreak d = false) : Cut avail (piece ++ rest) piece rest

/-- A line that is longer than the limit is cut in this way. -/
theorem cut_spec {avail : Nat} {line : List Char} (ha : 0 < avail) (hl : avail < line.length) :
    Cut avail line (cut avail line).1 (cut avail line).2 := by
  obtain ⟨c, s, rfl⟩ := List.exists_cons_of_length_pos (by omega : 0 < line.length)
  obtain ⟨limit, rfl⟩ : ∃ limit, avail = limit + 1 := ⟨avail - 1, by omega⟩
  unfold cut
  split
  · rename_i i hi
    obtain ⟨before, d, after, hs, rfl, hle, hd, hlast⟩ := lastBreak?_eq_some hi
    obtain rfl : s = before ++ d :: after := hs
    have htake : (c :: (before ++ d :: after)).take (before.length + 1) = c :: before := by simp
    have hdrop : (c :: (before ++ d :: after)).drop (before.length + 2) = after := by simp
    rw [htake, hdrop]
    have hlast' : ∀ e ∈ after.take (limit + 1 - (c :: before).length), isBreak e = false := by
      rwa [List.length_cons, Nat.add_sub_add_right]
    exact .atBreak (List.cons_ne_nil c before) (by simpa using hle) hd hlast'
  · rename_i hnone
    have hnone' : ∀ d ∈ ((c :: s).take (limit + 1 + 1)).tail, isBreak d = false := lastBreak?_eq_none hnone
    have hlen : ((c :: s).take (limit + 1)).length = limit + 1 := by
      rw [List.length_take]
      omega
    have hcut := @Cut.atLimit (limit + 1) _ ((c :: s).drop (limit + 1)) hlen
    rw [List.take_append_drop] at hcut
    exact hcut hnone'

/-! ## Pieces -/

/-- The pieces of a line, the first of which has room for `first` characters and every other one for `next`: as long as what is
left of the line is too long, a piece is cut off it. -/
inductive PiecesOf (next : Nat) : (first : Nat) → (line : List Char) → List (List Char) → Prop
  | fits {first : Nat} {line : List Char} (h : line.length ≤ first) : PiecesOf next first line [line]
  | cut {first : Nat} {line piece rest : List Char} {more : List (List Char)} (h : first < line.length)
      (hcut : Cut first line piece rest) (hmore : PiecesOf next next rest more) : PiecesOf next first line (piece :: more)

/-- Where a column and the indent leave room, a line is cut into its pieces. -/
theorem pieces_spec {indent width column : Int} (hindent : 0 ≤ indent ∧ indent < width)
    (hcolumn : 0 ≤ column ∧ column < width) (line : List Char) :
    PiecesOf (width - indent).toNat (width - column).toNat line (pieces indent width column line) := by
  fun_induction pieces indent width column line with
  | case1 column line hfits => exact .fits (by omega)
  | case2 column hlong => simp only [List.length_nil] at hlong; omega
  | case3 column line hlong hne ih =>
    have hroom : room width column = (width - column).toNat := by
      unfold room
      omega
    have hlen : (width - column).toNat < line.length := by omega
    rw [hroom] at ih ⊢
    exact .cut hlen (cut_spec (by omega) hlen) (ih hindent)

/-- A line that fits is its only piece. -/
theorem pieces_of_fits {indent width column : Int} {line : List Char} (h : column + line.length ≤ width) :
    pieces indent width column line = [line] := by
  rw [pieces, if_pos h]

namespace PiecesOf

variable {first next : Nat} {line : List Char} {ps : List (List Char)}

/-- Every piece has room. -/
theorem exists_cons (h : PiecesOf next first line ps) :
    ∃ p qs, ps = p :: qs ∧ p.length ≤ first ∧ ∀ q ∈ qs, q.length ≤ next := by
  induction h with
  | fits h => exact ⟨_, [], rfl, h, by simp⟩
  | @cut first line piece rest more _ hcut _ ih =>
    obtain ⟨p, qs, rfl, hp, hqs⟩ := ih
    have hpiece : piece.length ≤ first := by
      cases hcut with
      | atBreak _ hlen => exact hlen
      | atLimit hlen => exact Nat.le_of_eq hlen
    refine ⟨piece, p :: qs, rfl, hpiece, ?_⟩
    intro q hq
    rcases List.mem_cons.mp hq with rfl | hq
    · exact hp
    · exact hqs q hq

/-- The pieces are made of characters of the line. -/
theorem mem_line (h : PiecesOf next first line ps) : ∀ p ∈ ps, ∀ c ∈ p, c ∈ line := by
  induction h with
  | fits h =>
    intro p hp c hc
    rwa [List.mem_singleton.mp hp] at hc
  | cut _ hcut _ ih =>
    intro p hp c hc
    cases hcut with
    | atBreak =>
      rcases List.mem_cons.mp hp with rfl | hp
      · exact List.mem_append_left _ hc
      · exact List.mem_append_right _ (List.mem_cons_of_mem _ (ih p hp c hc))
    | atLimit =>
      rcases List.mem_cons.mp hp with rfl | hp
      · exact List.mem_append_left _ hc
      · exact List.mem_append_right _ (ih p hp c hc)

end PiecesOf

/-! ## Lines -/

/-- The spaces in front of a piece that is not the first. -/
def margin (indent : Int) : List Char :=
  List.replicate indent.toNat ' '

/-- The lines that pieces become. -/
def indented (indent : Int) : List (List Char) → List (List Char)
  | [] => []
  | p :: ps => p :: ps.map (margin indent ++ ·)

/-- A text in front of joined pieces is one in front of the first of their lines. -/
theorem append_intercalate_pieces (indent : Int) (s p : List Char) (ps : List (List Char)) :
    s ++ ('\n' :: margin indent).intercalate (p :: ps) = unlines ((s ++ p) :: ps.map (margin indent ++ ·)) := by
  induction ps generalizing s p with
  | nil => simp [unlines]
  | cons q qs ih =>
    rw [List.intercalate_cons_cons, List.map_cons, Text.unlines_cons (List.cons_ne_nil _ _), ← ih (margin indent) q]
    simp only [List.append_assoc, List.cons_append]

/-- A wrapped line is made of lines, one for each piece. -/
theorem wrapLine_eq (indent width : Int) (line : List Char) :
    wrapLine indent width line = unlines (indented indent (pieces indent width 0 line)) := by
  rw [wrapLine, ← margin]
  cases pieces indent width 0 line with
  | nil => rfl
  | cons p ps => exact append_intercalate_pieces indent [] p ps

/-- The lines of a wrapped text are those of its wrapped lines. -/
theorem lines_breakLines (text : String) (indent width : Int) :
    lines (breakLines text indent width).toList =
      (lines text.toList).flatMap fun line => lines (wrapLine indent width line) := by
  rw [breakLines, String.toList_ofList, Text.lines_unlines_flatMap, List.flatMap_map]
  simpa using Text.lines_ne_nil text.toList

section

variable {indent width : Int} (hindent : 0 ≤ indent ∧ indent < width)
include hindent

theorem wrapLine_pieces (line : List Char) :
    PiecesOf (width - indent).toNat width.toNat line (pieces indent width 0 line) := by
  have h := @pieces_spec indent width 0 hindent (by omega) line
  rwa [Int.sub_zero] at h

/-- The lines of a wrapped line are those that its pieces become. -/
theorem lines_wrapLine {line : List Char} (hline : '\n' ∉ line) :
    lines (wrapLine indent width line) = indented indent (pieces indent width 0 line) := by
  obtain ⟨p, ps, hps, -⟩ := (wrapLine_pieces hindent line).exists_cons
  have hmem := (wrapLine_pieces hindent line).mem_line
  have hmargin : '\n' ∉ margin indent := fun h => absurd (List.eq_of_mem_replicate h) (by decide)
  rw [hps] at hmem
  rw [wrapLine_eq, hps]
  refine Text.lines_unlines ?_ (List.cons_ne_nil _ _)
  intro l hl hn
  rcases List.mem_cons.mp hl with rfl | hl
  · exact hline (hmem _ List.mem_cons_self _ hn)
  · obtain ⟨q, hq, rfl⟩ := List.mem_map.mp hl
    rcases List.mem_append.mp hn with hn | hn
    · exact hmargin hn
    · exact hline (hmem q (List.mem_cons_of_mem _ hq) _ hn)

/-- Every line of a wrapped line fits. -/
theorem length_le_of_mem_wrapLine {line : List Char} (hline : '\n' ∉ line) :
    ∀ l ∈ lines (wrapLine indent width line), (l.length : Int) ≤ width := by
  obtain ⟨p, ps, hps, hp, hqs⟩ := (wrapLine_pieces hindent line).exists_cons
  rw [lines_wrapLine hindent hline, hps]
  intro l hl
  rcases List.mem_cons.mp hl with rfl | hl
  · omega
  · obtain ⟨q, hq, rfl⟩ := List.mem_map.mp hl
    have := hqs q hq
    rw [List.length_append, margin, List.length_replicate]
    omega

/-- Every line of a wrapped text fits. -/
theorem length_le_of_mem_breakLines (text : String) :
    ∀ l ∈ lines (breakLines text indent width).toList, (l.length : Int) ≤ width := by
  rw [lines_breakLines]
  intro l hl
  obtain ⟨line, hline, hl⟩ := List.mem_flatMap.mp hl
  exact length_le_of_mem_wrapLine hindent (Text.not_mem_of_mem_lines hline) l hl

end

/-- A text whose lines fit stays as it is, whatever the indent. -/
theorem breakLines_of_fits {text : String} {width : Int} (h : ∀ l ∈ lines text.toList, (l.length : Int) ≤ width)
    (indent : Int) : breakLines text indent width = text := by
  have hline : ∀ l ∈ lines text.toList, wrapLine indent width l = l := by
    intro l hl
    have := h l hl
    rw [wrapLine, pieces_of_fits (by omega), List.intercalate_singleton]
  rw [breakLines, List.map_congr_left hline, List.map_id', Text.unlines_lines, String.ofList_toList]

/-- Every line of a wrapped text fits in the width if the indent leaves room. The text stays as it is exactly when its lines fit,
and so the wrapped text does, whatever it is indented by when it is wrapped again. -/
theorem breakLines_fits (text : String) {indent width : Int} (hindent : 0 ≤ indent) (hwidth : indent < width) :
    (∀ l ∈ lines (breakLines text indent width).toList, (l.length : Int) ≤ width) ∧
      (breakLines text indent width = text ↔ ∀ l ∈ lines text.toList, (l.length : Int) ≤ width) ∧
      ∀ j, breakLines (breakLines text indent width) j width = breakLines text indent width := by
  have hfits := length_le_of_mem_breakLines ⟨hindent, hwidth⟩ text
  refine ⟨hfits, ⟨fun h => ?_, fun h => breakLines_of_fits h indent⟩, breakLines_of_fits hfits⟩
  rwa [h] at hfits

/-- A word that is cut twice behind a line break, and a blank line. -/
theorem breakLines_fits_of_long_word :
    let text := "see abcdefghij\n\nok"
    let wrapped := "see\n  abcd\n  efgh\n  ij\n\nok"
    breakLines text 2 6 = wrapped ∧ (∀ l ∈ lines wrapped.toList, (l.length : Int) ≤ 6) ∧
      (¬∀ l ∈ lines text.toList, (l.length : Int) ≤ 6) ∧ breakLines wrapped 0 6 = wrapped := by
  intro text wrapped
  have hwrapped : breakLines text 2 6 = wrapped := by decide +kernel
  obtain ⟨hfits, hiff, hstable⟩ := @breakLines_fits text 2 6 (by decide) (by decide)
  have hstable := hstable 0
  rw [hwrapped] at hfits hiff hstable
  exact ⟨hwrapped, hfits, fun h => absurd (hiff.mpr h) (by decide), hstable⟩

/-! ## What shows -/

/-- Whether a character shows: it is no newline, and no line may be broken at it. -/
def isVisible (c : Char) : Bool :=
  c != '\n' && !isBreak c

/-- The characters of a text that show. -/
def visible (s : List Char) : List Char :=
  s.filter isVisible

theorem visible_append (s t : List Char) : visible (s ++ t) = visible s ++ visible t :=
  List.filter_append ..

theorem visible_flatMap {α : Type} (l : List α) (f : α → List Char) :
    visible (l.flatMap f) = l.flatMap fun a => visible (f a) :=
  List.filter_flatMap ..

/-- What shows of joined texts is what shows of each. -/
theorem visible_intercalate {sep : List Char} (hsep : visible sep = []) (ls : List (List Char)) :
    visible (sep.intercalate ls) = ls.flatMap visible := by
  induction ls with
  | nil => rfl
  | cons l ls ih =>
    cases ls with
    | nil => simp
    | cons m ls =>
      rw [List.intercalate_cons_cons, visible_append, visible_append, hsep, ih, List.append_nil]
      rfl

theorem visible_unlines (ls : List (List Char)) : visible (unlines ls) = ls.flatMap visible :=
  visible_intercalate rfl ls

/-- What shows of a line shows of its pieces. -/
theorem PiecesOf.visible_eq {first next : Nat} {line : List Char} {ps : List (List Char)} (h : PiecesOf next first line ps) :
    ps.flatMap visible = visible line := by
  induction h with
  | fits => simp
  | @cut first line piece rest more _ hcut _ ih =>
    rw [List.flatMap_cons, ih]
    cases hcut with
    | @atBreak _ _ c _ _ hc _ =>
      have hdrop : visible (c :: rest) = visible rest := List.filter_cons_of_neg (by simp [isVisible, hc])
      rw [visible_append, hdrop]
    | atLimit => rw [visible_append]

/-- Wrapping a text changes nothing of what shows of it. -/
theorem visible_breakLines (text : String) {indent width : Int} (hindent : 0 ≤ indent ∧ indent < width) :
    visible (breakLines text indent width).toList = visible text.toList := by
  have hmargin : visible ('\n' :: margin indent) = [] := by
    rw [visible, List.filter_eq_nil_iff]
    intro c hc
    rcases List.mem_cons.mp hc with rfl | hc
    · decide
    · rw [List.eq_of_mem_replicate hc]
      decide
  have hline : ∀ line, visible (wrapLine indent width line) = visible line := by
    intro line
    rw [wrapLine, ← margin, visible_intercalate hmargin, (wrapLine_pieces hindent line).visible_eq]
  have htext := visible_unlines (lines text.toList)
  rw [Text.unlines_lines] at htext
  rw [htext, breakLines, String.toList_ofList, visible_unlines, List.flatMap_map]
  simp only [hline]

end RunParams.Wrap

import Mathlib.Data.List.Forall2
import Mathlib.Data.Nat.SuccPred
import Mathlib.Order.SuccPred.Archimedean
import RunParams.Proofs.Wrapping

/-!
# Greedy wrapping

A line is wrapped greedily when each of its pieces is as long as the breaks allow: as long as what is left of the line is too
long, the last break character within the limit is dropped and a piece ends before it, and where there is none the piece fills
the limit. A line has one greedy layout only, and wrapping a text lays out each of its lines in that way.
-/

namespace RunParams.Wrap

open Text (lines unlines)

/-! ## Layouts -/

/-- The pieces of a line, and what is dropped between each of them and the next. -/
structure Layout where
  pieces : List (List Char)
  dropped : List (List Char)

/-- Pieces with what was dropped between them. -/
def rejoin : (pieces dropped : List (List Char)) → List Char
  | [], _ => []
  | p :: ps, [] => p ++ rejoin ps []
  | p :: ps, s :: ss => p ++ (s ++ rejoin ps ss)

/-- What is left of the line at a piece. -/
def Layout.left (l : Layout) (j : Nat) : List Char :=
  rejoin (l.pieces.drop j) (l.dropped.drop j)

/-- Whether what is left of a line has a break character at an index that leaves a piece before it, within the limit. -/
def MayBreak (avail : Nat) (left : List Char) (i : Nat) : Prop :=
  1 ≤ i ∧ i ≤ avail ∧ ∃ c, left[i]? = some c ∧ isBreak c = true

/-- How a piece, and what is dropped behind it, are taken off what is left of a line: before the last break character within the
limit, and where there is none, at the limit. -/
structure Taken (avail : Nat) (left piece dropped : List Char) : Prop where
  too_long : avail < left.length
  at_break : ∀ i, IsGreatest {i | MayBreak avail left i} i → piece = left.take i ∧ ∃ c, left[i]? = some c ∧ dropped = [c]
  at_limit : (∀ i, ¬ MayBreak avail left i) → dropped = [] ∧ piece.length = avail

/-- A greedy layout of a line, in which `limit j` is the room for the `j`th piece: nothing is lost of the line, every piece but
the last is taken off what is left of it, and the last is what is left when that fits. -/
structure IsGreedy (limit : Nat → Nat) (line : List Char) (l : Layout) : Prop where
  length_eq : l.pieces.length = l.dropped.length + 1
  whole : l.left 0 = line
  taken : ∀ j p s, l.pieces[j]? = some p → l.dropped[j]? = some s → Taken (limit j) (l.left j) p s
  fits : (l.left l.dropped.length).length ≤ limit l.dropped.length

/-! ## Taking a piece -/

variable {avail : Nat} {line piece rest : List Char}

/-- The break at which a line is cut is the last within the limit. -/
theorem isGreatest_mayBreak {c : Char} (hpiece : piece ≠ []) (hlen : piece.length ≤ avail) (hc : isBreak c = true)
    (hlast : ∀ d ∈ rest.take (avail - piece.length), isBreak d = false) :
    IsGreatest {i | MayBreak avail (piece ++ c :: rest) i} piece.length := by
  constructor
  · exact ⟨List.length_pos_iff.mpr hpiece, hlen, c, by simp, hc⟩
  · rintro i ⟨-, hi, d, hd, hbreak⟩
    by_contra hlt
    -- a later break would stand in what follows the one at which the line is cut
    obtain ⟨k, rfl⟩ : ∃ k, i = piece.length + (k + 1) := ⟨i - piece.length - 1, by omega⟩
    rw [List.getElem?_append_right (by omega), Nat.add_sub_cancel_left, List.getElem?_cons_succ] at hd
    have hmem : d ∈ rest.take (avail - piece.length) := by
      refine List.mem_of_getElem? (i := k) ?_
      rwa [List.getElem?_take_of_lt (by omega)]
    rw [hlast d hmem] at hbreak
    cases hbreak

/-- Where a line is cut at the limit, there is no break within it. -/
theorem not_mayBreak (hnone : ∀ d ∈ (line.take (avail + 1)).tail, isBreak d = false) (i : Nat) : ¬ MayBreak avail line i := by
  rintro ⟨hpos, hi, d, hd, hbreak⟩
  have hmem : d ∈ (line.take (avail + 1)).tail := by
    refine List.mem_of_getElem? (i := i - 1) ?_
    rw [List.getElem?_tail, Nat.sub_add_cancel hpos, List.getElem?_take_of_lt (by omega)]
    exact hd
  rw [hnone d hmem] at hbreak
  cases hbreak

/-- A cut takes a piece off a line. -/
theorem Cut.exists_taken (h : Cut avail line piece rest) (hlong : avail < line.length) :
    ∃ dropped, Taken avail line piece dropped ∧ line = piece ++ (dropped ++ rest) := by
  cases h with
  | @atBreak _ _ c hpiece hlen hc hlast =>
    have hgreatest := isGreatest_mayBreak hpiece hlen hc hlast
    refine ⟨[c], ⟨hlong, fun i hi => ?_, fun hnone => absurd hgreatest.1 (hnone _)⟩, rfl⟩
    obtain rfl := hi.unique hgreatest
    exact ⟨by simp, c, by simp, rfl⟩
  | atLimit hlen hnone =>
    exact ⟨[], ⟨hlong, fun i hi => absurd hi.1 (not_mayBreak hnone i), fun _ => ⟨rfl, hlen⟩⟩, rfl⟩

/-- Only one piece can be taken off a line. -/
theorem Taken.unique {dropped piece' dropped' rest' : List Char} (h : Taken avail line piece dropped)
    (h' : Taken avail line piece' dropped') (hline : line = piece ++ (dropped ++ rest))
    (hline' : line = piece' ++ (dropped' ++ rest')) : piece = piece' ∧ dropped = dropped' ∧ rest = rest' := by
  have hsame : piece = piece' ∧ dropped = dropped' := by
    by_cases hbreak : ∃ i, MayBreak avail line i
    · obtain ⟨i, hi⟩ : ∃ i, IsGreatest {i | MayBreak avail line i} i :=
        BddAbove.exists_isGreatest_of_nonempty ⟨avail, fun i hi => hi.2.1⟩ hbreak
      obtain ⟨hp, c, hc, hs⟩ := h.at_break i hi
      obtain ⟨hp', c', hc', hs'⟩ := h'.at_break i hi
      obtain rfl := Option.some.inj (hc.symm.trans hc')
      exact ⟨hp.trans hp'.symm, hs.trans hs'.symm⟩
    · obtain ⟨hs, hp⟩ := h.at_limit (not_exists.mp hbreak)
      obtain ⟨hs', hp'⟩ := h'.at_limit (not_exists.mp hbreak)
      have heads : piece ++ (dropped ++ rest) = piece' ++ (dropped' ++ rest') := hline.symm.trans hline'
      exact ⟨List.append_inj_left heads (hp.trans hp'.symm), hs.trans hs'.symm⟩
  obtain ⟨rfl, rfl⟩ := hsame
  exact ⟨rfl, rfl, List.append_cancel_left (List.append_cancel_left (hline.symm.trans hline'))⟩

/-! ## Greedy layouts -/

variable {limit : Nat → Nat}

/-- A layout without cuts is greedy where the line is its only piece, and fits. -/
theorem isGreedy_nil_iff {ps : List (List Char)} : IsGreedy limit line ⟨ps, []⟩ ↔ ps = [line] ∧ line.length ≤ limit 0 := by
  constructor
  · rintro ⟨hlen, hwhole, -, hfits⟩
    obtain ⟨p, rfl⟩ := List.length_eq_one_iff.mp hlen
    obtain rfl : p = line := by simpa [Layout.left, rejoin] using hwhole
    exact ⟨rfl, by simpa [Layout.left, rejoin] using hfits⟩
  · rintro ⟨rfl, hfits⟩
    exact ⟨rfl, by simp [Layout.left, rejoin], fun j p s _ hs => by simp at hs, by simpa [Layout.left, rejoin] using hfits⟩

/-- A layout with a cut is greedy where its first piece is taken off the line, and what remains is laid out greedily with the
limits that follow. -/
theorem isGreedy_cons_iff {p s : List Char} {ps ss : List (List Char)} :
    IsGreedy limit line ⟨p :: ps, s :: ss⟩ ↔
      ∃ rest, line = p ++ (s ++ rest) ∧ Taken (limit 0) line p s ∧ IsGreedy (fun j => limit (j + 1)) rest ⟨ps, ss⟩ := by
  constructor
  · rintro ⟨hlen, hwhole, htaken, hfits⟩
    have hfirst := htaken 0 p s rfl rfl
    rw [hwhole] at hfirst
    exact ⟨rejoin ps ss, hwhole.symm, hfirst, Nat.succ.inj hlen, rfl, fun j q t hq ht => htaken (j + 1) q t hq ht, hfits⟩
  · rintro ⟨rest, rfl, hfirst, hlen, hwhole, htaken, hfits⟩
    have hwhole' : Layout.left ⟨p :: ps, s :: ss⟩ 0 = p ++ (s ++ rest) := by rw [← hwhole]; rfl
    refine ⟨congrArg Nat.succ hlen, hwhole', fun j q t hq ht => ?_, hfits⟩
    cases j with
    | zero =>
      obtain rfl := Option.some.inj hq
      obtain rfl := Option.some.inj ht
      rw [hwhole']
      exact hfirst
    | succ j => exact htaken j q t hq ht

/-- A line has at most one greedy layout. -/
theorem IsGreedy.unique {l l' : Layout} (h : IsGreedy limit line l) (h' : IsGreedy limit line l') : l = l' := by
  obtain ⟨ps, ss⟩ := l
  obtain ⟨ps', ss'⟩ := l'
  -- the induction is on the cuts, and the limits move on by one with each of them
  induction ss generalizing limit line ps ps' ss' with
  | nil =>
    obtain ⟨rfl, hfits⟩ := isGreedy_nil_iff.mp h
    cases ss' with
    | nil =>
      obtain ⟨rfl, -⟩ := isGreedy_nil_iff.mp h'
      rfl
    | cons s' ss' =>
      obtain ⟨p', ps', rfl⟩ := List.exists_cons_of_length_eq_add_one h'.length_eq
      obtain ⟨-, -, htaken, -⟩ := isGreedy_cons_iff.mp h'
      exact absurd htaken.too_long (by omega)
  | cons s ss ih =>
    obtain ⟨p, ps, rfl⟩ := List.exists_cons_of_length_eq_add_one h.length_eq
    obtain ⟨rest, hline, htaken, hrest⟩ := isGreedy_cons_iff.mp h
    cases ss' with
    | nil =>
      obtain ⟨-, hfits⟩ := isGreedy_nil_iff.mp h'
      exact absurd htaken.too_long (by omega)
    | cons s' ss' =>
      obtain ⟨p', ps', rfl⟩ := List.exists_cons_of_length_eq_add_one h'.length_eq
      obtain ⟨rest', hline', htaken', hrest'⟩ := isGreedy_cons_iff.mp h'
      obtain ⟨rfl, rfl, rfl⟩ := htaken.unique htaken' hline hline'
      obtain ⟨rfl, rfl⟩ := Layout.mk.inj (ih ps hrest ps' ss' hrest')
      rfl

/-- The pieces of a line are those of a greedy layout. -/
theorem PiecesOf.exists_isGreedy {next first : Nat} {ps : List (List Char)} (h : PiecesOf next first line ps)
    (hfirst : limit 0 = first) (hnext : ∀ j, limit (j + 1) = next) : ∃ ss, IsGreedy limit line ⟨ps, ss⟩ := by
  induction h generalizing limit with
  | fits h => exact ⟨[], isGreedy_nil_iff.mpr ⟨rfl, hfirst ▸ h⟩⟩
  | cut hlong hcut _ ih =>
    obtain ⟨s, htaken, hline⟩ := hcut.exists_taken hlong
    obtain ⟨ss, hrest⟩ := @ih (fun j => limit (j + 1)) (hnext 0) fun j => hnext (j + 1)
    exact ⟨s :: ss, isGreedy_cons_iff.mpr ⟨_, hline, hfirst ▸ htaken, hrest⟩⟩

/-! ## Wrapped texts -/

/-- The room for a piece of a line: the whole width for the first, and what the indent leaves of it for every other one. -/
def pieceLimit (indent width j : Nat) : Nat :=
  if j = 0 then width else width - indent

/-- The lines that a layout becomes: every piece but the first stands behind the indent. -/
def Layout.lines (indent : Nat) (l : Layout) : List (List Char) :=
  indented indent l.pieces

theorem indented_pieces_ne_nil (indent width : Int) (line : List Char) : indented indent (pieces indent width 0 line) ≠ [] := by
  rw [pieces]
  split
  · exact List.cons_ne_nil _ _
  · split <;> exact List.cons_ne_nil _ _

/-- A wrapped text consists of the lines that the pieces of its lines become. -/
theorem toList_breakLines (text : String) (indent width : Int) :
    (breakLines text indent width).toList =
      unlines ((lines text.toList).flatMap fun line => indented indent (pieces indent width 0 line)) := by
  rw [breakLines, String.toList_ofList, ← Text.unlines_map_unlines fun line => indented_pieces_ne_nil indent width line]
  exact congrArg unlines (List.map_congr_left fun line _ => wrapLine_eq indent width line)

section

variable {indent width : Nat} (h : indent < width)
include h

/-- The pieces of a line that is wrapped are those of its greedy layout. -/
theorem isGreedy_pieces (line : List Char) : ∃ ss, IsGreedy (pieceLimit indent width) line ⟨pieces indent width 0 line, ss⟩ := by
  have hpieces := @wrapLine_pieces indent width ⟨by omega, by omega⟩ line
  have hnext : ((width : Int) - indent).toNat = width - indent := by omega
  rw [hnext, Int.toNat_natCast] at hpieces
  exact hpieces.exists_isGreedy rfl fun j => rfl

/-- A text is what wrapping makes of another one exactly when it consists of the lines of greedy layouts, one for each line of
that text. -/
theorem eq_breakLines_iff (text s : String) :
    s = breakLines text indent width ↔
      ∃ layouts, List.Forall₂ (IsGreedy (pieceLimit indent width)) (lines text.toList) layouts ∧
        s.toList = unlines (layouts.flatMap (Layout.lines indent)) := by
  choose dropped hgreedy using isGreedy_pieces h
  let layout (line : List Char) : Layout := ⟨pieces indent width 0 line, dropped line⟩
  have hwrapped : (breakLines text indent width).toList =
      unlines (((lines text.toList).map layout).flatMap (Layout.lines indent)) := by
    rw [toList_breakLines, List.flatMap_map]
    rfl
  constructor
  · rintro rfl
    refine ⟨_, ?_, hwrapped⟩
    rw [List.forall₂_map_right_iff, List.forall₂_same]
    exact fun line _ => hgreedy line
  · rintro ⟨layouts, hall, hs⟩
    have hlayouts : List.Forall₂ (fun line l => layout line = l) (lines text.toList) layouts :=
      hall.imp fun line l hl => (hgreedy line).unique hl
    rw [← List.forall₂_map_left_iff (f := layout), List.forall₂_eq_eq_eq] at hlayouts
    apply String.toList_injective
    rw [hs, hwrapped, hlayouts]

end

/-- Two lines: one that is cut at a space, at a tab and inside a word, and one without a break. -/
theorem eq_breakLines_of_two_lines :
    ∃ layouts, List.Forall₂ (IsGreedy (pieceLimit 2 6)) (lines "one two\tthree\n12345678".toList) layouts ∧
      "one\n  two\n  thre\n  e\n123456\n  78".toList = unlines (layouts.flatMap (Layout.lines 2)) := by
  have hwrapped : "one\n  two\n  thre\n  e\n123456\n  78" = breakLines "one two\tthree\n12345678" (2 : Nat) (6 : Nat) := by
    decide +kernel
  exact (eq_breakLines_iff (by decide) _ _).mp hwrapped

end RunParams.Wrap

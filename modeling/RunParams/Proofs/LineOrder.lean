import RunParams.Proofs.DocumentRuns

/-!
# The order of lines

A document is its lines in some order, apart from blank lines and comments. The order has no part in whether the document is read
to its end, and none in the values that are read then.
-/

namespace RunParams

/-- A key is found with the same value in any order of pairs, if no key is repeated. -/
theorem lookup_perm {α β : Type} [DecidableEq α] {l m : List (α × β)} (hp : l.Perm m) (hn : (l.map (·.1)).Nodup) (a : α) :
    l.lookup a = m.lookup a := by
  have hm : (m.map (·.1)).Nodup := (hp.map (·.1)).nodup_iff.mp hn
  apply Option.ext
  intro b
  rw [lookup_eq_some_iff_mem hn, lookup_eq_some_iff_mem hm, hp.mem_iff]

namespace Document

/-! ## What lines assign -/

/-- The values that lines assign, in order; every one of them has the form of a line. -/
def LinesAssign (lines : List (List Char)) (entries : List (String × String)) : Prop :=
  ∃ es, List.Forall₂ LineForm lines es ∧ entries = es.reduceOption

theorem LineForm.linesAssign {line : List Char} {e : Option (String × String)} (h : LineForm line e) :
    LinesAssign [line] e.toList :=
  ⟨[e], .cons h .nil, (List.reduceOption_singleton e).symm⟩

theorem LinesAssign.append {lines more : List (List Char)} {entries others : List (String × String)}
    (h : LinesAssign lines entries) (h' : LinesAssign more others) : LinesAssign (lines ++ more) (entries ++ others) := by
  obtain ⟨es, hes, rfl⟩ := h
  obtain ⟨fs, hfs, rfl⟩ := h'
  exact ⟨es ++ fs, List.rel_append hes hfs, (List.reduceOption_append es fs).symm⟩

/-- What each of the lines assigns is among their values. -/
theorem LinesAssign.exists_of_mem {lines : List (List Char)} {entries : List (String × String)} (h : LinesAssign lines entries)
    {line : List Char} (hline : line ∈ lines) : ∃ e, LineForm line e ∧ ∀ a ∈ e, a ∈ entries := by
  obtain ⟨es, hes, rfl⟩ := h
  obtain ⟨i, hi, rfl⟩ := List.mem_iff_getElem.mp hline
  have hi' : i < es.length := hes.length_eq ▸ hi
  refine ⟨es[i], hes.get hi hi', fun a ha => ?_⟩
  rw [List.reduceOption_mem_iff, ← ha]
  exact List.getElem_mem hi'

/-- Lines in another order assign their values in another order. -/
theorem LinesAssign.perm {lines lines' : List (List Char)} (hp : lines.Perm lines') {entries : List (String × String)}
    (h : LinesAssign lines entries) : ∃ entries', LinesAssign lines' entries' ∧ entries.Perm entries' := by
  obtain ⟨es, hes, rfl⟩ := h
  obtain ⟨es', hes', hp'⟩ := List.perm_comp_forall₂ hp.symm hes
  exact ⟨es'.reduceOption, ⟨es', hes', rfl⟩, (hp'.filterMap id).symm⟩

/-- What some lines and then some more assign, the first lines assign and then the others. -/
theorem linesAssign_append_iff {lines more : List (List Char)} {entries : List (String × String)} :
    LinesAssign (lines ++ more) entries ↔
      ∃ first second, LinesAssign lines first ∧ LinesAssign more second ∧ entries = first ++ second := by
  constructor
  · intro h
    induction lines generalizing entries with
    | nil => exact ⟨[], entries, ⟨[], .nil, rfl⟩, h, rfl⟩
    | cons line lines ih =>
      obtain ⟨_, hforms, rfl⟩ := h
      obtain ⟨e, es, hform, hes, rfl⟩ := List.forall₂_cons_left_iff.mp hforms
      obtain ⟨first, second, hfirst, hsecond, happend⟩ := ih ⟨es, hes, rfl⟩
      have hline := (LineForm.linesAssign hform).append hfirst
      refine ⟨e.toList ++ first, second, hline, hsecond, ?_⟩
      rw [List.append_assoc, ← happend]
      cases e <;> rfl
  · rintro ⟨first, second, hfirst, hsecond, rfl⟩
    exact hfirst.append hsecond

/-- Lines that assign nothing may be left out. -/
theorem linesAssign_remarks_append_iff {remarks : List (List Char)} (hremarks : ∀ line ∈ remarks, LineForm line none)
    {lines : List (List Char)} {entries : List (String × String)} :
    LinesAssign (remarks ++ lines) entries ↔ LinesAssign lines entries := by
  induction remarks with
  | nil => exact Iff.rfl
  | cons line remarks ih =>
    have hline := hremarks line (by simp)
    rw [← ih fun l hl => hremarks l (List.mem_cons_of_mem _ hl)]
    constructor
    · rintro ⟨_, hforms, rfl⟩
      obtain ⟨e, es, he, hes, rfl⟩ := List.forall₂_cons_left_iff.mp hforms
      obtain rfl := he.unique hline
      exact ⟨es, hes, List.reduceOption_cons_of_none es⟩
    · rintro ⟨es, hes, rfl⟩
      exact ⟨none :: es, .cons hline hes, (List.reduceOption_cons_of_none es).symm⟩

/-! ## Rearranged lines -/

/-- Lines that are those of another document in another order, but for lines that assign nothing. -/
def Rearranged (lines lines' : List (List Char)) : Prop :=
  ∃ common remarks remarks', lines.Perm (remarks ++ common) ∧ lines'.Perm (remarks' ++ common) ∧
    ∀ line ∈ remarks ++ remarks', LineForm line none

theorem Rearranged.symm {lines lines' : List (List Char)} (h : Rearranged lines lines') : Rearranged lines' lines := by
  obtain ⟨common, remarks, remarks', hp, hp', hremarks⟩ := h
  refine ⟨common, remarks', remarks, hp', hp, ?_⟩
  intro line hline
  exact hremarks line (List.perm_append_comm.mem_iff.mp hline)

/-- Rearranged lines assign the same values in another order. -/
theorem Rearranged.linesAssign {lines lines' : List (List Char)} (h : Rearranged lines lines')
    {entries : List (String × String)} (hassign : LinesAssign lines entries) :
    ∃ entries', LinesAssign lines' entries' ∧ entries.Perm entries' := by
  obtain ⟨common, remarks, remarks', hp, hp', hremarks⟩ := h
  have hleft : ∀ line ∈ remarks, LineForm line none := fun l hl => hremarks l (List.mem_append_left _ hl)
  have hright : ∀ line ∈ remarks', LineForm line none := fun l hl => hremarks l (List.mem_append_right _ hl)
  obtain ⟨between, hbetween, hq⟩ := hassign.perm hp
  rw [linesAssign_remarks_append_iff hleft, ← linesAssign_remarks_append_iff hright] at hbetween
  obtain ⟨entries', hentries', hq'⟩ := hbetween.perm hp'.symm
  exact ⟨entries', hentries', hq.trans hq'⟩

/-- Writes that all succeed do so in any order, and leave the same value at every path. -/
theorem writeEntries_perm {t : Tree} (h : t.WellFormed) {overwrite : Bool} {entries entries' : List (String × String)}
    (hp : entries.Perm entries') (hn : (entries.map (·.1)).Nodup) (ok : (writeEntries overwrite t entries).2 = none) :
    (writeEntries overwrite t entries').2 = none ∧
      ∀ p, (writeEntries overwrite t entries).1.get? p = (writeEntries overwrite t entries').1.get? p := by
  have hp' := hp.map (·.1)
  have ok' : (writeEntries overwrite t entries').2 = none := by
    rw [writeEntries_eq_none_iff h] at ok ⊢
    simpa only [hp'.mem_iff] using ok
  refine ⟨ok', fun p => ?_⟩
  rw [get?_writeEntries hn ok, get?_writeEntries (hp'.nodup_iff.mp hn) ok', lookup_perm hp hn]

/-- A document that is read to its end is read to its end when its lines are rearranged, with the same value at every path. -/
theorem read_of_rearranged {t : Tree} (h : t.WellFormed) {text text' : String}
    (hr : Rearranged (Text.lines text.toList) (Text.lines text'.toList)) (source source' : String) {overwrite : Bool}
    (ok : (read t text source overwrite).2 = none) :
    (read t text' source' overwrite).2 = none ∧
      ∀ p, (read t text source overwrite).1.get? p = (read t text' source' overwrite).1.get? p := by
  have heq : read t text source overwrite = (_, none) := Prod.ext rfl ok
  obtain ⟨entries, hassign, hn, hwrite⟩ := read_eq_iff.mp heq
  obtain ⟨entries', hassign', hp⟩ := hr.linesAssign hassign
  obtain ⟨ok', hget⟩ := writeEntries_perm h hp hn (congrArg Prod.snd hwrite)
  have hread' : read t text' source' overwrite = (_, none) :=
    read_eq_iff.mpr ⟨entries', hassign', (hp.map (·.1)).nodup_iff.mp hn, Prod.ext rfl ok'⟩
  rw [hread']
  refine ⟨rfl, fun p => ?_⟩
  rw [← hget p, hwrite]

/-- Two documents with the same lines in different orders, up to lines that assign nothing, are both read to their ends or both
not, and in the first case leave the same value at every path. -/
theorem read_rearranged {ctx : Context} (h : ctx.Reachable) {text text' : String}
    (hr : Rearranged (Text.lines text.toList) (Text.lines text'.toList)) (source source' : String) (overwrite : Bool) :
    ((read ctx.tree text source overwrite).2 = none ↔ (read ctx.tree text' source' overwrite).2 = none) ∧
      ((read ctx.tree text source overwrite).2 = none → ∀ p,
        (read ctx.tree text source overwrite).1.get? p = (read ctx.tree text' source' overwrite).1.get? p ∧
          (read ctx.tree text source overwrite).1.hasKey p = (read ctx.tree text' source' overwrite).1.hasKey p) := by
  have hw := h.valid.tree.wellFormed
  refine ⟨⟨fun ok => (read_of_rearranged hw hr source source' ok).1,
    fun ok => (read_of_rearranged hw hr.symm source' source ok).1⟩, ?_⟩
  intro ok p
  have hget := (read_of_rearranged hw hr source source' ok).2 p
  exact ⟨hget, by rw [Tree.hasKey, Tree.hasKey, hget]⟩

/-- Two lines in the other order, one text with a comment between them and the other with a blank line in front, over a tree that
has a value for one of the keys. -/
theorem read_rearranged_of_two_lines :
    let ctx := Context.empty.after (.write (·.set "C.D" "0") (.set _ _))
    (read ctx.tree "a=1\n# one\nc.d=2" "case.ini" false).2 = none ∧
      (read ctx.tree "\t\nc.d=2\na=1" "other.ini" false).2 = none ∧
      ∀ p, (read ctx.tree "a=1\n# one\nc.d=2" "case.ini" false).1.get? p =
        (read ctx.tree "\t\nc.d=2\na=1" "other.ini" false).1.get? p := by
  intro ctx
  have hreach : ctx.Reachable := .after .empty _
  have hr : Rearranged (Text.lines "a=1\n# one\nc.d=2".toList) (Text.lines "\t\nc.d=2\na=1".toList) := by
    refine ⟨["a=1".toList, "c.d=2".toList], ["# one".toList], ["\t".toList], by decide +kernel, by decide +kernel, ?_⟩
    intro line hline
    rw [← readHead_eq_nothing_iff]
    revert line
    decide +kernel
  have hok : (read ctx.tree "a=1\n# one\nc.d=2" "case.ini" false).2 = none := by decide +kernel
  obtain ⟨hiff, hget⟩ := read_rearranged hreach hr "case.ini" "other.ini" false
  exact ⟨hok, hiff.mp hok, fun p => (hget hok p).1⟩

end Document

end RunParams

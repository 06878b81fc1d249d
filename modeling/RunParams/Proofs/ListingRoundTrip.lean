import RunParams.Proofs.LineOrder
import RunParams.Proofs.Lines
import RunParams.Proofs.TreeReplay
import RunParams.Report

/-!
# Reading listings back

A listing writes values between quotes as they are. It is a document that makes the listed tree again exactly when no value has
a character that would have to be escaped; otherwise it is refused, or a value comes out changed.
-/

namespace RunParams

/-! ## Literals without escapes -/

namespace Quoted

/-- A value without quotes and backslashes is its own body. -/
theorem body_self {v : List Char} (h : ∀ c ∈ v, c ≠ '"' ∧ c ≠ '\\') : Body v v := by
  induction v with
  | nil => exact .nil
  | cons c v ih =>
    obtain ⟨hq, hs⟩ := h c (by simp)
    exact .plain hq hs (ih fun d hd => h d (List.mem_cons_of_mem _ hd))

/-- A value is not longer than what is written for it between the quotes, and where it is as long it is written as it is. -/
theorem Body.length_le {b v : List Char} (h : Body b v) :
    v.length ≤ b.length ∧ (b.length ≤ v.length → b = v ∧ ∀ c ∈ v, c ≠ '"' ∧ c ≠ '\\') := by
  induction h with
  | nil => simp
  | @plain c b v hq hs _ ih =>
    obtain ⟨hle, heq⟩ := ih
    refine ⟨Nat.succ_le_succ hle, fun h => ?_⟩
    obtain ⟨rfl, hv⟩ := heq (Nat.le_of_succ_le_succ h)
    exact ⟨rfl, List.forall_mem_cons.mpr ⟨⟨hq, hs⟩, hv⟩⟩
  | escape hc _ ih =>
    simp only [List.length_cons]
    exact ⟨by omega, fun h => by omega⟩

end Quoted

namespace Report

open Document (LineForm)
open Spelling (IsCanonicalPath)

/-! ## Lines with a key and its value -/

/-- A value that can be written between quotes on one line as it is: it has no quote, no backslash and no newline. -/
def Plain (value : String) : Prop :=
  ∀ c ∈ value.toList, c ≠ '"' ∧ c ≠ '\\' ∧ c ≠ '\n'

instance (value : String) : Decidable (Plain value) :=
  List.decidableBAll (fun c => c ≠ '"' ∧ c ≠ '\\' ∧ c ≠ '\n') value.toList

/-- The beginning of the line of a key, up to the quote before its value. -/
def lead (key : String) : List Char :=
  key.toList ++ ['=', '"']

theorem toList_pair (key value : String) : (pair key value).toList = lead key ++ value.toList ++ ['"'] := by
  have h : pair key value = key ++ "=\"" ++ value ++ "\"" := rfl
  simp [h, lead]

variable {key value : String}

theorem newline_not_mem_lead (hk : IsCanonicalPath key) : '\n' ∉ lead key := by
  simp [lead, hk.newline_not_mem]

theorem Plain.newline_not_mem (hv : Plain value) : '\n' ∉ value.toList :=
  fun h => (hv _ h).2.2 rfl

theorem newline_not_mem_pair (hk : IsCanonicalPath key) (hv : Plain value) : '\n' ∉ (pair key value).toList := by
  simp [toList_pair, newline_not_mem_lead hk, hv.newline_not_mem]

/-- A key and a plain value with a comment behind them are a line that assigns the value to the key. -/
theorem lineForm_pair (hk : IsCanonicalPath key) (hv : Plain value) {w remark : List Char} (hw : Blanks w)
    (hremark : Document.IsRemark remark) :
    LineForm ((pair key value).toList ++ w ++ remark) (some (key, value)) := by
  have hbody : Quoted.Body value.toList value.toList :=
    Quoted.body_self fun c hc => ⟨(hv c hc).1, (hv c hc).2.1⟩
  have hrest : Document.RestForm ('=' :: ('"' :: value.toList ++ ['"']) ++ w ++ remark) value :=
    ⟨[], [], '"' :: value.toList ++ ['"'], w, remark, value.toList, blanks_nil, blanks_nil, hw,
      .quoted hbody, hremark, by simp, by simp⟩
  have hspells : Spelling.SpellsPath (String.ofList key.toList) key := by
    rw [String.ofList_toList]
    exact hk.spellsPath
  have := LineForm.assignment blanks_nil hk.toList_ne_nil hk.mem_toList hspells hrest
  simpa [toList_pair, lead] using this

theorem lineForm_pair_self (hk : IsCanonicalPath key) (hv : Plain value) : LineForm (pair key value).toList (some (key, value)) := by
  simpa using lineForm_pair hk hv blanks_nil (.inl rfl)

/-- A value that starts with a quote right behind the equals sign is a literal. -/
theorem restForm_quote {s : List Char} (h : Document.RestForm ('=' :: '"' :: s) value) :
    ∃ b v rest, Quoted.Body b v ∧ s = b ++ '"' :: rest ∧ value = String.ofList v := by
  obtain ⟨w₁, w₂, v, w₃, remark, text, hw₁, hw₂, -, hv, -, hs, hvalue⟩ := h
  simp only [List.append_assoc, List.cons_append] at hs
  cases w₁ with
  | cons c w =>
    obtain ⟨rfl, -⟩ := List.cons.inj hs
    exact absurd (hw₁ '=' (by simp)) (by decide)
  | nil =>
    obtain ⟨-, hs⟩ := List.cons.inj hs
    cases w₂ with
    | cons c w =>
      obtain ⟨rfl, -⟩ := List.cons.inj hs
      exact absurd (hw₂ '"' (by simp)) (by decide)
    | nil =>
      cases hv with
      | quoted hbody =>
        refine ⟨_, _, w₃ ++ remark, hbody, ?_, hvalue⟩
        simpa using hs
      | bare _ hc _ =>
        obtain ⟨rfl, -⟩ := List.cons.inj hs
        exact absurd rfl hc.1

/-- The line of a key assigns to this key, and what it assigns is a literal behind its quote. -/
theorem lineForm_lead (hk : IsCanonicalPath key) {s : List Char} {e : Option (String × String)} (h : LineForm (lead key ++ s) e) :
    ∃ b v rest, Quoted.Body b v ∧ s = b ++ '"' :: rest ∧ e = some (key, String.ofList v) := by
  have hhead : Document.readHead (lead key ++ s) = .ok (.key key ('=' :: '"' :: s)) := by
    refine Document.readHead_eq_key_iff.mpr ⟨[], key.toList, blanks_nil, hk.toList_ne_nil, hk.mem_toList, ?_, ?_, ?_⟩
    · rw [String.ofList_toList]
      exact hk.spellsPath
    · simp [lead]
    · rintro c r hc
      obtain ⟨rfl, -⟩ := List.cons.inj hc
      decide
  cases e with
  | none =>
    rw [Document.readHead_eq_nothing_iff.mpr h] at hhead
    cases hhead
  | some e =>
    obtain ⟨path, value⟩ := e
    obtain ⟨rest, hkey, hvalue⟩ := Document.lineForm_some_iff.mp h
    rw [hhead] at hkey
    cases hkey
    obtain ⟨b, v, rest, hbody, hs, rfl⟩ := restForm_quote (Document.readValue_eq_ok_iff.mp hvalue)
    exact ⟨b, v, rest, hbody, hs, rfl⟩

/-- The first line of a key and its value: all of it if the value has no newline, and else the part in front of its first. -/
theorem exists_mem_lines_pair (hk : IsCanonicalPath key) (value : String) :
    ∃ s, lead key ++ s ∈ Text.lines (pair key value).toList ∧
      ('\n' ∉ value.toList ∧ s = value.toList ++ ['"'] ∨ ∃ t, value.toList = s ++ '\n' :: t) := by
  rw [toList_pair]
  by_cases h : '\n' ∈ value.toList
  · obtain ⟨a, b, hab, ha⟩ := List.eq_append_cons_of_mem h
    have hline : '\n' ∉ lead key ++ a := by simp [newline_not_mem_lead hk, ha]
    have hsplit : lead key ++ value.toList ++ ['"'] = (lead key ++ a) ++ '\n' :: (b ++ ['"']) := by simp [hab]
    refine ⟨a, ?_, .inr ⟨b, hab⟩⟩
    rw [hsplit, Text.lines_append_newline, Text.lines_of_not_mem hline]
    exact List.mem_append_left _ (List.mem_singleton_self _)
  · have hline : '\n' ∉ lead key ++ value.toList ++ ['"'] := by simp [newline_not_mem_lead hk, h]
    refine ⟨value.toList ++ ['"'], ?_, .inl ⟨h, rfl⟩⟩
    rw [Text.lines_of_not_mem hline, List.append_assoc]
    exact List.mem_singleton_self _

/-- Where the first line of a key and its value assigns just this value to the key, the value is plain: any other value is
longer than what can be read from the line. -/
theorem plain_of_lineForm (hk : IsCanonicalPath key) {s : List Char} (h : LineForm (lead key ++ s) (some (key, value)))
    (hs : '\n' ∉ value.toList ∧ s = value.toList ++ ['"'] ∨ ∃ t, value.toList = s ++ '\n' :: t) : Plain value := by
  obtain ⟨b, v, rest, hbody, rfl, he⟩ := lineForm_lead hk h
  have hv : value.toList = v := by
    rw [(Prod.mk.inj (Option.some.inj he)).2, String.toList_ofList]
  obtain ⟨hle, heq⟩ := hbody.length_le
  rw [← hv] at hle heq
  rcases hs with ⟨hnewline, hs⟩ | ⟨t, ht⟩
  · have hlen := congrArg List.length hs
    simp only [List.length_append, List.length_cons, List.length_nil] at hlen
    obtain ⟨-, hverbatim⟩ := heq (by omega)
    intro c hc
    exact ⟨(hverbatim c hc).1, (hverbatim c hc).2, fun e => hnewline (e ▸ hc)⟩
  · have hlen := congrArg List.length ht
    simp only [List.length_append, List.length_cons] at hlen
    omega

/-! ## Texts of whole lines -/

/-- A text is whole lines, each with a newline behind it, that assign values. -/
def WholeLines (text : String) (entries : List (String × String)) : Prop :=
  ∃ lines, text.toList = lines.flatMap (· ++ ['\n']) ∧ (∀ l ∈ lines, '\n' ∉ l) ∧ Document.LinesAssign lines entries

theorem wholeLines_empty : WholeLines "" [] :=
  ⟨[], rfl, by simp, [], .nil, rfl⟩

theorem WholeLines.append {text more : String} {entries others : List (String × String)} (h : WholeLines text entries)
    (h' : WholeLines more others) : WholeLines (text ++ more) (entries ++ others) := by
  obtain ⟨lines, htext, hn, hassign⟩ := h
  obtain ⟨lines', htext', hn', hassign'⟩ := h'
  refine ⟨lines ++ lines', ?_, ?_, hassign.append hassign'⟩
  · rw [String.toList_append, htext, htext', List.flatMap_append]
  · intro l hl
    exact (List.mem_append.mp hl).elim (hn l) (hn' l)

/-- Whole lines assign what they do as a document: the empty line behind them assigns nothing. -/
theorem WholeLines.assigns {text : String} {entries : List (String × String)} (h : WholeLines text entries) :
    Document.Assigns text entries := by
  obtain ⟨lines, htext, hn, hassign⟩ := h
  have hlast : LineForm [] none := .remark blanks_nil (.inl rfl)
  rw [Document.Assigns, htext, Text.lines_ended hn, ← List.append_nil entries]
  exact hassign.append hlast.linesAssign

theorem wholeLines_row {row : String} (hn : '\n' ∉ row.toList) {e : Option (String × String)} (h : LineForm row.toList e) :
    WholeLines (row ++ "\n") e.toList :=
  ⟨[row.toList], by simp, by simpa using hn, h.linesAssign⟩

/-- Rows that each assign a value, one after the other. -/
theorem wholeLines_rows {α : Type} {row : α → String} {entry : α → String × String} {xs : List α}
    (h : ∀ x ∈ xs, '\n' ∉ (row x).toList ∧ LineForm (row x).toList (some (entry x))) :
    WholeLines (String.join (xs.map fun x => row x ++ "\n")) (xs.map entry) := by
  induction xs with
  | nil => exact wholeLines_empty
  | cons x xs ih =>
    obtain ⟨hn, hform⟩ := h x (by simp)
    rw [List.map_cons, String.join_cons]
    exact (wholeLines_row hn hform).append (ih fun y hy => h y (List.mem_cons_of_mem _ hy))

/-! ## Listings -/

/-- A listing of all keys of a tree has a row for each of its leaves. -/
theorem unusedListing_eq {t : Tree} (h : t.WellFormed) :
    unusedListing t t.keys = String.join (t.assignments.map fun e => pair e.1 e.2 ++ "\n") := by
  rw [unusedListing, h.assignments_eq, List.map_map]
  rfl

section

variable {t : Tree}

/-- The listing of a tree with canonical paths and plain values assigns just these values. -/
theorem assigns_unusedListing (h : t.WellFormed) (hpaths : ∀ p ∈ t.keys, IsCanonicalPath p)
    (hplain : ∀ p v, t.get? p = some v → Plain v) : Document.Assigns (unusedListing t t.keys) t.assignments := by
  have hentry : ∀ e ∈ t.assignments, IsCanonicalPath e.1 ∧ Plain e.2 := by
    intro e he
    have hv : t.get? e.1 = some e.2 := h.mem_assignments_iff.mp he
    exact ⟨hpaths e.1 (h.mem_keys_of_get? hv), hplain e.1 e.2 hv⟩
  have hrows : ∀ e ∈ t.assignments, '\n' ∉ (pair e.1 e.2).toList ∧ LineForm (pair e.1 e.2).toList (some (id e)) := by
    intro e he
    obtain ⟨hk, hv⟩ := hentry e he
    exact ⟨newline_not_mem_pair hk hv, lineForm_pair_self hk hv⟩
  have hassigns := (wholeLines_rows hrows).assigns
  rw [List.map_id] at hassigns
  rw [unusedListing_eq h]
  exact hassigns

/-- A value that is read back from a listing is plain. -/
theorem plain_of_get? (h : t.WellFormed) (hpaths : ∀ p ∈ t.keys, IsCanonicalPath p) {u : Tree} {source : String}
    {overwrite : Bool} (hread : Document.read .empty (unusedListing t t.keys) source overwrite = (u, none)) {p v : String}
    (hv : t.get? p = some v) (hu : u.get? p = some v) : Plain v := by
  have hmem : (p, v) ∈ t.assignments := h.mem_assignments_iff.mpr hv
  have hk : IsCanonicalPath p := hpaths p (h.mem_keys_of_get? hv)
  obtain ⟨entries, hassigns, hnodup, hwrite⟩ := Document.read_eq_iff.mp hread
  obtain ⟨s, hline, hs⟩ := exists_mem_lines_pair hk v
  have hline' : lead p ++ s ∈ Text.lines (unusedListing t t.keys).toList := by
    have htext : (unusedListing t t.keys).toList =
        (t.assignments.map fun e => (pair e.1 e.2).toList).flatMap (· ++ ['\n']) := by
      rw [unusedListing_eq h, String.toList_join]
      simp [List.flatMap_map]
    rw [htext, Text.lines_flatMap_newline, List.flatMap_map]
    exact List.mem_append_left _ (List.mem_flatMap.mpr ⟨(p, v), hmem, hline⟩)
  obtain ⟨e, hform, he⟩ := Document.LinesAssign.exists_of_mem hassigns hline'
  obtain ⟨b, w, rest, -, -, rfl⟩ := lineForm_lead hk hform
  -- No other line assigns to the key, so that the value in the tree is the one of this line.
  have hget := Document.get?_writeEntries hnodup (congrArg Prod.snd hwrite) p
  rw [hwrite, hu, (lookup_eq_some_iff_mem hnodup).mpr (he _ rfl)] at hget
  have hvalue : v = String.ofList w := by simpa using hget
  rw [← hvalue] at hform
  exact plain_of_lineForm hk hform hs

/-- The listing of a tree with canonical paths is read back exactly when all values are plain: into a fresh context it then makes
the same tree, with all names in their order. Otherwise it is refused, or the value of a key differs. -/
theorem read_unusedListing (h : t.Reachable) (hpaths : ∀ p ∈ t.keys, IsCanonicalPath p) (source : String)
    (overwrite : Bool) :
    let listed := Document.read Context.empty.tree (unusedListing t t.keys) source overwrite
    (listed = (t, none) ↔ ∀ p v, t.get? p = some v → Plain v) ∧
      (¬(∀ p v, t.get? p = some v → Plain v) →
        listed.2 ≠ none ∨ ∃ p v, t.get? p = some v ∧ listed.1.get? p ≠ some v) := by
  have hw := h.wellFormed
  intro listed
  refine ⟨⟨?_, ?_⟩, ?_⟩
  · intro hread p v hv
    exact plain_of_get? hw hpaths hread hv hv
  · intro hplain
    refine Document.read_eq_iff.mpr ⟨t.assignments, assigns_unusedListing hw hpaths hplain, ?_, hw.replay overwrite⟩
    rw [Tree.map_fst_assignments]
    exact hw.nodup_keys
  · intro hnot
    push Not at hnot
    obtain ⟨p, v, hv, hplain⟩ := hnot
    by_cases hok : listed.2 = none
    · have hread : listed = (listed.1, none) := Prod.ext rfl hok
      exact .inr ⟨p, v, hv, fun hu => hplain (plain_of_get? hw hpaths hread hv hu)⟩
    · exact .inl hok

/-- A tree with two plain values, and one with a value that would have to be escaped. -/
theorem read_unusedListing_of_two_trees :
    let plain := ((Tree.empty.set "Grid.Cells" "1 2 #").1.set "Model" "").1
    let quoted := (Tree.empty.set "Grid.File" "a\"b").1
    Document.read Context.empty.tree (unusedListing plain plain.keys) "case.ini" true = (plain, none) ∧
      ¬(∀ p v, quoted.get? p = some v → Plain v) ∧
      ((Document.read Context.empty.tree (unusedListing quoted quoted.keys) "case.ini" true).2 ≠ none ∨
        ∃ p v, quoted.get? p = some v ∧
          (Document.read Context.empty.tree (unusedListing quoted quoted.keys) "case.ini" true).1.get? p ≠ some v) := by
  intro plain quoted
  have hplain : plain.Reachable := (Tree.Reachable.empty.write (.set _ _)).write (.set _ _)
  have hquoted : quoted.Reachable := Tree.Reachable.empty.write (.set _ _)
  have hpaths : ∀ p ∈ plain.keys, IsCanonicalPath p := by
    simp only [← Spelling.canonicalizePath_eq_self_iff]
    decide +kernel
  have hpaths' : ∀ p ∈ quoted.keys, IsCanonicalPath p := by
    simp only [← Spelling.canonicalizePath_eq_self_iff]
    decide +kernel
  have hvalues : ∀ p v, plain.get? p = some v → Plain v := by
    have hall : ∀ e ∈ plain.assignments, Plain e.2 := by decide +kernel
    exact fun p v hv => hall (p, v) (hplain.wellFormed.mem_assignments_iff.mpr hv)
  have hnot : ¬(∀ p v, quoted.get? p = some v → Plain v) := by
    intro h
    exact absurd (h "Grid.File" "a\"b" (by decide +kernel)) (by decide +kernel)
  exact ⟨(read_unusedListing hplain hpaths "case.ini" true).1.mpr hvalues, hnot,
    (read_unusedListing hquoted hpaths' "case.ini" true).2 hnot⟩

end

end Report

end RunParams

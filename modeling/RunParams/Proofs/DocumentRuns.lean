import Mathlib.Data.List.ReduceOption
import RunParams.Proofs.BatchWrites
import RunParams.Proofs.LineGrammar
import RunParams.Proofs.Runs

/-!
# Reading documents

A document is read to its end exactly when all of its lines have the form of a line, no two of them assign the same path, and no
path of the document and the tree stands above another one.
-/

namespace RunParams.Document

/-! ## One line -/

/-- A value is behind white space or an equals sign, so that the key before it ends. -/
theorem RestForm.stops {rest : List Char} {value : String} (h : RestForm rest value) : Stops Token.inKey rest := by
  obtain ⟨w₁, w₂, v, w₃, remark, text, hw₁, -, -, -, -, rfl, -⟩ := h
  intro c r hc
  cases w₁ with
  | nil =>
    obtain ⟨rfl, -⟩ := List.cons.inj hc
    decide
  | cons d w =>
    obtain ⟨rfl, -⟩ := List.cons.inj hc
    simp [Token.inKey, hw₁ d (by simp)]

/-- A line assigns a value to a path exactly when it is read up to a key that spells the path, and on to the value. -/
theorem lineForm_some_iff {line : List Char} {path value : String} :
    LineForm line (some (path, value)) ↔ ∃ rest, readHead line = .ok (.key path rest) ∧ readValue rest = .ok value := by
  simp only [readHead_eq_key_iff, readValue_eq_ok_iff]
  constructor
  · intro h
    cases h with
    | assignment hw hk hkc hpath hrest => exact ⟨_, ⟨_, _, hw, hk, hkc, hpath, rfl, hrest.stops⟩, hrest⟩
  · rintro ⟨rest, ⟨w, k, hw, hk, hkc, hpath, rfl, -⟩, hrest⟩
    exact .assignment hw hk hkc hpath hrest

/-- A line has one form only. -/
theorem LineForm.unique {line : List Char} {a b : Option (String × String)} (ha : LineForm line a) (hb : LineForm line b) :
    a = b := by
  cases a with
  | none =>
    cases b with
    | none => rfl
    | some b =>
      obtain ⟨rest, hb, -⟩ := lineForm_some_iff.mp hb
      rw [readHead_eq_nothing_iff.mpr ha] at hb
      cases hb
  | some a =>
    obtain ⟨path, value⟩ := a
    obtain ⟨rest, ha, hv⟩ := lineForm_some_iff.mp ha
    cases b with
    | none =>
      rw [readHead_eq_nothing_iff.mpr hb] at ha
      cases ha
    | some b =>
      obtain ⟨path', value'⟩ := b
      obtain ⟨rest', hb, hv'⟩ := lineForm_some_iff.mp hb
      rw [ha] at hb
      cases hb
      rw [hv] at hv'
      cases hv'
      rfl

/-- A line that assigns nothing does nothing. -/
theorem readLine_of_remark {line : List Char} (h : LineForm line none) (overwrite : Bool) (p : Progress) :
    readLine overwrite p line = (p, none) := by
  simp only [readLine, readHead_eq_nothing_iff.mpr h]

/-- A line that assigns a value to a new path writes it. -/
theorem readLine_of_assignment {line : List Char} {path value : String} (h : LineForm line (some (path, value)))
    {p : Progress} (hnew : path ∉ p.seen) (overwrite : Bool) :
    readLine overwrite p line =
      (⟨(write overwrite p.tree path value).1, path :: p.seen⟩, (write overwrite p.tree path value).2.map .tree) := by
  obtain ⟨rest, hhead, hvalue⟩ := lineForm_some_iff.mp h
  simp only [readLine, hhead, List.contains_iff_mem, hnew, if_false, hvalue]

/-- What reading a line does: nothing for a line that assigns nothing; a write for one that assigns a value to a path that has
been assigned none; and for every other it fails, and does nothing. -/
inductive LineStep (overwrite : Bool) (p : Progress) (line : List Char) : Progress × Option LineError → Prop
  | remark (h : LineForm line none) : LineStep overwrite p line (p, none)
  | assign {path value : String} (h : LineForm line (some (path, value))) (hnew : path ∉ p.seen) :
      LineStep overwrite p line
        (⟨(write overwrite p.tree path value).1, path :: p.seen⟩, (write overwrite p.tree path value).2.map .tree)
  | refuse {cause : LineError} (hcause : ∀ e, cause ≠ .tree e) (hnone : ¬LineForm line none)
      (hsome : ∀ path value, LineForm line (some (path, value)) → path ∈ p.seen) : LineStep overwrite p line (p, some cause)

theorem readValue_ne_tree {rest : List Char} {cause : LineError} (h : readValue rest = .error cause) (e : TreeError) :
    cause ≠ .tree e := by
  rintro rfl
  unfold readValue at h
  split at h
  · dsimp only at h
    split at h
    · cases h
    · split at h
      · cases h
      · split at h <;> cases h
  · cases h

theorem readLine_step (overwrite : Bool) (p : Progress) (line : List Char) :
    LineStep overwrite p line (readLine overwrite p line) := by
  unfold readLine
  split
  · rename_i e he
    refine .refuse (fun e' h => by cases h) (fun h => ?_) fun path value h => ?_
    · rw [readHead_eq_nothing_iff.mpr h] at he
      cases he
    · obtain ⟨rest, h, -⟩ := lineForm_some_iff.mp h
      rw [h] at he
      cases he
  · rename_i he
    exact .remark (readHead_eq_nothing_iff.mp he)
  · rename_i path rest he
    have hnone : ¬LineForm line none := by
      intro h
      rw [readHead_eq_nothing_iff.mpr h] at he
      cases he
    split
    · rename_i hseen
      refine .refuse (fun e' h => by cases h) hnone fun path' value h => ?_
      obtain ⟨rest', h, -⟩ := lineForm_some_iff.mp h
      rw [h] at he
      cases he
      simpa using hseen
    · rename_i hnew
      split
      · rename_i cause hv
        refine .refuse (readValue_ne_tree hv) hnone fun path' value h => ?_
        obtain ⟨rest', h, hv'⟩ := lineForm_some_iff.mp h
        rw [h] at he
        cases he
        rw [hv'] at hv
        cases hv
      · rename_i value hv
        exact .assign (lineForm_some_iff.mpr ⟨rest, he, hv⟩) (by simpa using hnew)

/-! ## Many lines -/

/-- Lines are read without a failure, from one progress to another. -/
inductive Reads (overwrite : Bool) : Progress → List (List Char) → Progress → Prop
  | nil {p : Progress} : Reads overwrite p [] p
  | cons {p q r : Progress} {line : List Char} {lines : List (List Char)} (h : readLine overwrite p line = (q, none))
      (hs : Reads overwrite q lines r) : Reads overwrite p (line :: lines) r

/-- All lines are read exactly when they are read one after the other without a failure. -/
theorem readLines_eq_none_iff {source : String} {overwrite : Bool} {n : Nat} {p : Progress} {lines : List (List Char)}
    {t : Tree} :
    readLines source overwrite n p lines = (t, none) ↔ ∃ q, Reads overwrite p lines q ∧ q.tree = t := by
  induction lines generalizing n p with
  | nil =>
    constructor
    · intro h
      cases h
      exact ⟨p, .nil, rfl⟩
    · rintro ⟨q, hq, rfl⟩
      cases hq
      rfl
  | cons line lines ih =>
    rw [readLines]
    split
    · rename_i q cause e
      constructor
      · intro h
        cases h
      · rintro ⟨r, hr, -⟩
        cases hr with
        | cons h _ =>
          rw [e] at h
          cases h
    · rename_i q e
      rw [ih]
      constructor
      · rintro ⟨r, hr, rfl⟩
        exact ⟨r, .cons e hr, rfl⟩
      · rintro ⟨r, hr, rfl⟩
        cases hr with
        | cons h hs =>
          rw [e] at h
          cases h
          exact ⟨r, hs, rfl⟩

/-- Reading fails at the first line that cannot be read after those before it. -/
theorem readLines_eq_some {source : String} {overwrite : Bool} {n : Nat} {p : Progress} {lines : List (List Char)}
    {t : Tree} {e : DocumentError} (h : readLines source overwrite n p lines = (t, some e)) :
    ∃ pre line post q, lines = pre ++ line :: post ∧ Reads overwrite p pre q ∧
      (readLine overwrite q line).2 = some e.cause ∧ e.source = source ∧ e.line = n + pre.length := by
  induction lines generalizing n p with
  | nil => cases h
  | cons line lines ih =>
    rw [readLines] at h
    split at h
    · rename_i q cause e'
      cases h
      exact ⟨[], line, lines, p, rfl, .nil, by rw [e'], rfl, rfl⟩
    · rename_i q e'
      obtain ⟨pre, line', post, r, rfl, hpre, hline, hsource, hn⟩ := ih h
      refine ⟨line :: pre, line', post, r, rfl, .cons e' hpre, hline, hsource, ?_⟩
      rw [hn, List.length_cons]
      omega

/-- Lines behind others that were read. -/
theorem readLines_append {overwrite : Bool} {p q : Progress} {pre : List (List Char)} (h : Reads overwrite p pre q)
    (source : String) (n : Nat) (post : List (List Char)) :
    readLines source overwrite n p (pre ++ post) = readLines source overwrite (n + pre.length) q post := by
  induction h generalizing n with
  | nil => rfl
  | cons h _ ih =>
    rw [List.cons_append, readLines, h]
    dsimp only
    rw [ih, List.length_cons]
    congr 1
    omega

/-- Lines that were read are read without those behind them too. -/
theorem Reads.take {overwrite : Bool} {p q : Progress} {lines : List (List Char)} (h : Reads overwrite p lines q) (k : Nat) :
    ∃ r, Reads overwrite p (lines.take k) r := by
  induction h generalizing k with
  | nil => exact ⟨_, by simpa using .nil⟩
  | cons h _ ih =>
    cases k with
    | zero => exact ⟨_, .nil⟩
    | succ k =>
      obtain ⟨r, hr⟩ := ih k
      exact ⟨r, .cons h hr⟩

/-- The keys of the values that lines assign. -/
def keysOf (es : List (Option (String × String))) : List String :=
  es.reduceOption.map (·.1)

/-- What lines are when they are read from one progress to another: they have the forms of lines, they assign no path twice, and
none that was assigned before, and their values are written one after the other. -/
structure Reading (overwrite : Bool) (p : Progress) (lines : List (List Char)) (q : Progress)
    (es : List (Option (String × String))) : Prop where
  forms : List.Forall₂ LineForm lines es
  nodup : (keysOf es).Nodup
  fresh : ∀ k ∈ keysOf es, k ∉ p.seen
  writes : writeEntries overwrite p.tree es.reduceOption = (q.tree, none)
  seen : q.seen = (keysOf es).reverse ++ p.seen

theorem reading_nil_iff {overwrite : Bool} {p q : Progress} : Reading overwrite p [] q [] ↔ p = q := by
  constructor
  · intro h
    have htree := h.writes
    have hseen := h.seen
    obtain ⟨tree, seen⟩ := q
    simp only [List.reduceOption_nil, writeEntries, Prod.mk.injEq, and_true] at htree
    simp only [keysOf, List.reduceOption_nil, List.map_nil, List.reverse_nil, List.nil_append] at hseen
    rw [hseen, ← htree]
  · rintro rfl
    exact ⟨.nil, by simp [keysOf], by simp [keysOf], rfl, rfl⟩

/-- A line that assigns nothing changes nothing for those behind it. -/
theorem reading_cons_none_iff {overwrite : Bool} {p q : Progress} {line : List Char} {lines : List (List Char)}
    {es : List (Option (String × String))} (hform : LineForm line none) :
    Reading overwrite p (line :: lines) q (none :: es) ↔ Reading overwrite p lines q es := by
  constructor
  · intro h
    exact ⟨(List.forall₂_cons.mp h.forms).2, h.nodup, h.fresh, h.writes, h.seen⟩
  · intro h
    exact ⟨.cons hform h.forms, h.nodup, h.fresh, h.writes, h.seen⟩

/-- A line that assigns a value to a path assigns one that is new and can be written, and those behind it are read over that. -/
theorem reading_cons_some_iff {overwrite : Bool} {p q : Progress} {line : List Char} {lines : List (List Char)}
    {es : List (Option (String × String))} {path value : String} (hform : LineForm line (some (path, value))) :
    Reading overwrite p (line :: lines) q (some (path, value) :: es) ↔
      path ∉ p.seen ∧ (write overwrite p.tree path value).2 = none ∧
        Reading overwrite ⟨(write overwrite p.tree path value).1, path :: p.seen⟩ lines q es := by
  constructor
  · intro h
    obtain ⟨hfresh, hnodup⟩ := List.nodup_cons.mp h.nodup
    have hwrites := h.writes
    rw [List.reduceOption_cons_of_some] at hwrites
    obtain ⟨ok, hwrites⟩ := writeEntries_cons_eq_iff.mp hwrites
    refine ⟨h.fresh path (by simp [keysOf]), ok, (List.forall₂_cons.mp h.forms).2, hnodup, ?_, hwrites, ?_⟩
    · intro k hk hmem
      rcases List.mem_cons.mp hmem with rfl | hmem
      · exact hfresh hk
      · exact h.fresh k (List.mem_cons_of_mem _ hk) hmem
    · rw [h.seen]
      simp [keysOf]
  · rintro ⟨hnew, ok, h⟩
    refine ⟨.cons hform h.forms, ?_, ?_, ?_, ?_⟩
    · exact List.nodup_cons.mpr ⟨fun hmem => h.fresh path hmem (by simp), h.nodup⟩
    · intro k hk
      rcases List.mem_cons.mp hk with rfl | hk
      · exact hnew
      · exact fun hmem => h.fresh k hk (List.mem_cons_of_mem _ hmem)
    · rw [List.reduceOption_cons_of_some]
      exact writeEntries_cons_eq_iff.mpr ⟨ok, h.writes⟩
    · rw [h.seen]
      simp [keysOf]

/-- Lines are read exactly when they are a reading with some forms. -/
theorem reads_iff {overwrite : Bool} {p q : Progress} {lines : List (List Char)} :
    Reads overwrite p lines q ↔ ∃ es, Reading overwrite p lines q es := by
  constructor
  · intro h
    induction h with
    | nil => exact ⟨[], reading_nil_iff.mpr rfl⟩
    | @cons p q r line lines h _ ih =>
      obtain ⟨es, hes⟩ := ih
      have hstep := readLine_step overwrite p line
      rw [h] at hstep
      generalize hout : ((q, none) : Progress × Option LineError) = out at hstep
      cases hstep with
      | remark hform =>
        cases hout
        exact ⟨none :: es, (reading_cons_none_iff hform).mpr hes⟩
      | @assign path value hform hnew =>
        obtain ⟨rfl, hok⟩ := Prod.mk.inj hout
        have ok : (write overwrite p.tree path value).2 = none := Option.map_eq_none_iff.mp hok.symm
        exact ⟨some (path, value) :: es, (reading_cons_some_iff hform).mpr ⟨hnew, ok, hes⟩⟩
      | refuse hcause hnone hsome => cases hout
  · rintro ⟨es, hes⟩
    induction lines generalizing p es with
    | nil =>
      obtain rfl := List.forall₂_nil_left_iff.mp hes.forms
      obtain rfl := reading_nil_iff.mp hes
      exact .nil
    | cons line lines ih =>
      obtain ⟨e, es, hform, -, rfl⟩ := List.forall₂_cons_left_iff.mp hes.forms
      cases e with
      | none => exact .cons (readLine_of_remark hform overwrite p) (ih es ((reading_cons_none_iff hform).mp hes))
      | some e =>
        obtain ⟨path, value⟩ := e
        obtain ⟨hnew, ok, hes⟩ := (reading_cons_some_iff hform).mp hes
        refine .cons ?_ (ih es hes)
        rw [readLine_of_assignment hform hnew, ok]
        rfl

/-! ## Documents -/

/-- The values that a text assigns, in order; every line of the text has the form of a line. -/
def Assigns (text : String) (entries : List (String × String)) : Prop :=
  ∃ es, List.Forall₂ LineForm (Text.lines text.toList) es ∧ entries = es.reduceOption

/-- A text assigns one list of values only. -/
theorem Assigns.unique {text : String} {a b : List (String × String)} (ha : Assigns text a) (hb : Assigns text b) :
    a = b := by
  obtain ⟨es, hes, rfl⟩ := ha
  obtain ⟨fs, hfs, rfl⟩ := hb
  have hforms : Relator.RightUnique LineForm := fun _ _ _ h h' => h.unique h'
  rw [List.right_unique_forall₂' hforms hes hfs]

/-- A document is read to its end into a tree exactly when its lines have the forms of lines, assign no path twice, and all of
their values can be written. -/
theorem read_eq_iff {t u : Tree} {text source : String} {overwrite : Bool} :
    read t text source overwrite = (u, none) ↔
      ∃ entries, Assigns text entries ∧ (entries.map (·.1)).Nodup ∧ writeEntries overwrite t entries = (u, none) := by
  rw [read, readLines_eq_none_iff]
  constructor
  · rintro ⟨q, hq, rfl⟩
    obtain ⟨es, hes⟩ := reads_iff.mp hq
    exact ⟨_, ⟨es, hes.forms, rfl⟩, hes.nodup, hes.writes⟩
  · rintro ⟨_, ⟨es, hes, rfl⟩, hnodup, hwrite⟩
    exact ⟨⟨u, (keysOf es).reverse ++ []⟩, reads_iff.mpr ⟨es, hes, hnodup, by simp, hwrite, rfl⟩, rfl⟩

/-- A document is read to its end exactly when its lines have the forms of lines and assign no path twice, and no path of the
document and the tree stands above another one. Every path then has the value that the document assigns to it, unless it keeps
the one that it had. -/
theorem read_spec {ctx : Context} (h : ctx.Reachable) (text source : String) (overwrite : Bool) :
    ((read ctx.tree text source overwrite).2 = none ↔
      ∃ entries, Assigns text entries ∧ (entries.map (·.1)).Nodup ∧
        PrefixFree fun p => ctx.tree.IsLeaf p ∨ p ∈ entries.map (·.1)) ∧
    ∀ entries, Assigns text entries → (read ctx.tree text source overwrite).2 = none → ∀ p,
      (read ctx.tree text source overwrite).1.get? p =
          (if overwrite = true ∨ ctx.tree.get? p = none then (entries.lookup p).or (ctx.tree.get? p) else ctx.tree.get? p) ∧
        ((read ctx.tree text source overwrite).1.hasKey p = true ↔
          ctx.tree.hasKey p = true ∨ p ∈ entries.map (·.1)) := by
  have hw := h.valid.tree.wellFormed
  refine ⟨?_, ?_⟩
  · constructor
    · intro hread
      have heq : read ctx.tree text source overwrite = (_, none) := Prod.ext rfl hread
      obtain ⟨entries, hassigns, hnodup, hwrite⟩ := read_eq_iff.mp heq
      exact ⟨entries, hassigns, hnodup, (writeEntries_eq_none_iff hw).mp (congrArg Prod.snd hwrite)⟩
    · rintro ⟨entries, hassigns, hnodup, hfree⟩
      have hwrite : writeEntries overwrite ctx.tree entries = (_, none) :=
        Prod.ext rfl ((writeEntries_eq_none_iff hw).mpr hfree)
      rw [read_eq_iff.mpr ⟨entries, hassigns, hnodup, hwrite⟩]
  · intro entries hassigns hread p
    have heq : read ctx.tree text source overwrite = (_, none) := Prod.ext rfl hread
    obtain ⟨entries', hassigns', hnodup, hwrite⟩ := read_eq_iff.mp heq
    obtain rfl := hassigns.unique hassigns'
    have hget := get?_writeEntries hnodup (congrArg Prod.snd hwrite) p
    rw [hwrite] at hget
    refine ⟨hget, ?_⟩
    rw [Tree.hasKey, hget, Tree.hasKey]
    have hmem : p ∈ entries.map (·.1) ↔ (entries.lookup p).isSome = true := by
      rw [Option.isSome_iff_ne_none, ne_eq, lookup_eq_none_iff_not_mem, not_not]
    rw [hmem]
    by_cases hk : overwrite = true ∨ ctx.tree.get? p = none
    · rw [if_pos hk, Option.isSome_or, Bool.or_eq_true, or_comm]
    · have hsome : (ctx.tree.get? p).isSome = true := Option.isSome_iff_ne_none.mpr fun e => hk (.inr e)
      rw [if_neg hk]
      simp [hsome]

/-- A text with a comment and a quoted value, read over a tree with one value. -/
theorem read_spec_of_three_lines :
    ∃ entries, Assigns "a-b = 1 # one\nc.d=\"two\"\n; end" entries ∧ (entries.map (·.1)).Nodup ∧
      PrefixFree fun p => (Tree.empty.set "C.E" "0").1.IsLeaf p ∨ p ∈ entries.map (·.1) := by
  have hreach := Context.Reachable.after .empty (.write _ (.set "C.E" "0"))
  exact (read_spec hreach "a-b = 1 # one\nc.d=\"two\"\n; end" "case.ini" false).1.mp (by decide +kernel)

end RunParams.Document

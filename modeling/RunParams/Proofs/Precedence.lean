import RunParams.Proofs.CommandLineErrors
import RunParams.Proofs.DocumentRuns

/-!
# Precedence of sources

Values come from command lines and from documents, one source after the other. Some sources replace the values that are there, and
others keep them. The value that a path has in the end is that of the last source that replaces values, or else the one that it
had before all of them, or else that of the first source.
-/

namespace RunParams

/-! ## One source -/

/-- Where values come from: a command line of options, or a document, which replaces values or keeps them. -/
inductive Source
  | commandLine (argv : List String) (preamble : String) (width : Int)
  | document (text name : String) (overwrite : Bool)

namespace Source

/-- Whether a source replaces the values that are there. -/
def replaces : Source → Bool
  | commandLine _ _ _ => true
  | document _ _ overwrite => overwrite

/-- The reading of a source. -/
def operation : Source → Operation
  | commandLine argv preamble width => .readCommandLine argv preamble width CommandLine.noPositionals ()
  | document text name overwrite => .readDocument text name overwrite

/-- A source is read to its end. -/
def Succeeds (ctx : Context) : Source → Prop
  | commandLine argv preamble width =>
    (ctx.readCommandLine argv preamble width CommandLine.noPositionals ()).answer = .ok ""
  | document text name overwrite => (Document.read ctx.tree text name overwrite).2 = none

/-- The values that a source assigns to paths, in order. -/
def Assigns (entries : List (String × String)) : Source → Prop
  | commandLine argv _ _ => List.Forall₂ CommandLine.OptionForm argv entries
  | document text _ _ => Document.Assigns text entries

/-- A source gives a path a value. -/
def Gives (s : Source) (path value : String) : Prop :=
  ∃ entries, s.Assigns entries ∧ (path, value) ∈ entries

/-- A source assigns one list of values only. -/
theorem Assigns.unique {s : Source} {a b : List (String × String)} (ha : s.Assigns a) (hb : s.Assigns b) : a = b := by
  cases s with
  | commandLine argv preamble width =>
    have hforms : Relator.RightUnique CommandLine.OptionForm := fun _ _ _ h h' => h.unique h'
    exact List.right_unique_forall₂' hforms ha hb
  | document text name overwrite => exact Document.Assigns.unique ha hb

/-- A source that is read to its end writes all of the values that it assigns, to different paths. -/
theorem Succeeds.exists_writes {ctx : Context} {s : Source} (h : s.Succeeds ctx) :
    ∃ entries, s.Assigns entries ∧ (entries.map (·.1)).Nodup ∧
      Document.writeEntries s.replaces ctx.tree entries = ((ctx.after s.operation).tree, none) := by
  cases s with
  | commandLine argv preamble width =>
    obtain ⟨st, hread⟩ := Context.exists_read_of_answer h
    obtain ⟨entries, hforms, hnodup, hwrites, -⟩ := CommandLine.read_options_eq_accepted_iff.mp hread
    have hresult := Context.readCommandLine_of_forms hforms hnodup hwrites preamble width
    refine ⟨entries, hforms, hnodup, hwrites.trans ?_⟩
    rw [operation, Context.after, hresult]
  | document text name overwrite =>
    exact Document.read_eq_iff.mp (Prod.ext rfl h)

/-- What a path has after a source: the value that the source gives it, if it gives one, unless the source keeps another. -/
theorem Succeeds.exists_given {ctx : Context} {s : Source} (h : s.Succeeds ctx) (path : String) :
    ∃ given : Option String, (∀ value, s.Gives path value ↔ given = some value) ∧
      (ctx.after s.operation).tree.get? path =
        if s.replaces = true ∨ ctx.tree.get? path = none then given.or (ctx.tree.get? path) else ctx.tree.get? path := by
  obtain ⟨entries, hassigns, hnodup, hwrites⟩ := h.exists_writes
  refine ⟨entries.lookup path, fun value => ?_, ?_⟩
  · rw [lookup_eq_some_iff_mem hnodup]
    constructor
    · rintro ⟨entries', hassigns', hmem⟩
      rw [hassigns.unique hassigns']
      exact hmem
    · exact fun hmem => ⟨entries, hassigns, hmem⟩
  · have hget := Document.get?_writeEntries hnodup (congrArg Prod.snd hwrites) path
    rw [hwrites] at hget
    exact hget

end Source

/-! ## The source that wins -/

/-- No source that replaces values gives the path one. -/
def Unreplaced (path : String) (sources : List Source) : Prop :=
  ∀ s ∈ sources, s.replaces = true → ∀ value, ¬s.Gives path value

/-- The value of a path after sources: that of the last one that replaces values and gives the path one; if there is none, the
value before them; and if there was none, that of the first source that gives the path one. -/
inductive Wins (path : String) (initial : Option String) (sources : List Source) (value : String) : Prop
  | last {pre post : List Source} {s : Source} (h : sources = pre ++ s :: post) (hs : s.replaces = true)
      (hgives : s.Gives path value) (hpost : Unreplaced path post) : Wins path initial sources value
  | kept (hnone : Unreplaced path sources) (h : initial = some value) : Wins path initial sources value
  | first (hnone : Unreplaced path sources) (hinitial : initial = none) {pre post : List Source} {s : Source}
      (h : sources = pre ++ s :: post) (hgives : s.Gives path value) (hpre : ∀ r ∈ pre, ∀ v, ¬r.Gives path v) :
      Wins path initial sources value

theorem unreplaced_cons_iff {path : String} {s : Source} {sources : List Source} :
    Unreplaced path (s :: sources) ↔ (s.replaces = true → ∀ value, ¬s.Gives path value) ∧ Unreplaced path sources :=
  List.forall_mem_cons

theorem wins_nil_iff {path value : String} {initial : Option String} : Wins path initial [] value ↔ initial = some value := by
  constructor
  · intro h
    cases h with
    | last h => simp at h
    | kept _ h => exact h
    | first _ _ h => simp at h
  · exact fun h => .kept (List.forall_mem_nil _) h

/-- The first of several sources leaves a value to the others. -/
theorem wins_cons_iff {path value : String} {initial given : Option String} {s : Source} {sources : List Source}
    (hgiven : ∀ v, s.Gives path v ↔ given = some v) :
    Wins path initial (s :: sources) value ↔
      Wins path (if s.replaces = true ∨ initial = none then given.or initial else initial) sources value := by
  have hungiven : given = none ↔ ∀ v, ¬s.Gives path v :=
    Option.eq_none_iff_forall_ne_some.trans (forall_congr' fun v => not_congr (hgiven v).symm)
  constructor
  · intro h
    cases h with
    | @last pre post r h hr hgives hpost =>
      cases pre with
      | nil =>
        obtain ⟨rfl, rfl⟩ := List.cons.inj h
        exact .kept hpost (by simp [hr, (hgiven value).mp hgives])
      | cons s' pre =>
        obtain ⟨rfl, rfl⟩ := List.cons.inj h
        exact .last rfl hr hgives hpost
    | kept hnone hinitial =>
      obtain ⟨hs, hnone⟩ := unreplaced_cons_iff.mp hnone
      refine .kept hnone ?_
      by_cases hr : s.replaces = true
      · simp [hr, hungiven.mpr (hs hr), hinitial]
      · simp [hr, hinitial]
    | @first hnone hinitial pre post r h hgives hpre =>
      obtain ⟨-, hnone⟩ := unreplaced_cons_iff.mp hnone
      cases pre with
      | nil =>
        obtain ⟨rfl, rfl⟩ := List.cons.inj h
        exact .kept hnone (by simp [hinitial, (hgiven value).mp hgives])
      | cons s' pre =>
        obtain ⟨rfl, rfl⟩ := List.cons.inj h
        obtain ⟨hs, hpre⟩ := List.forall_mem_cons.mp hpre
        exact .first hnone (by simp [hinitial, hungiven.mpr hs]) rfl hgives hpre
  · intro h
    cases h with
    | @last pre post r h hr hgives hpost =>
      have hsplit : s :: sources = (s :: pre) ++ r :: post := by rw [h, List.cons_append]
      exact .last hsplit hr hgives hpost
    | kept hnone h =>
      cases hg : given with
      | none =>
        rw [hg, Option.none_or, ite_self] at h
        exact .kept (unreplaced_cons_iff.mpr ⟨fun _ => hungiven.mp hg, hnone⟩) h
      | some v =>
        have hv := (hgiven v).mpr hg
        rw [hg, Option.some_or] at h
        by_cases hr : s.replaces = true
        · rw [if_pos (.inl hr)] at h
          obtain rfl := Option.some.inj h
          exact .last (List.nil_append _).symm hr hv hnone
        · have hnone := unreplaced_cons_iff.mpr ⟨fun hr' => absurd hr' hr, hnone⟩
          by_cases hi : initial = none
          · rw [if_pos (.inr hi)] at h
            obtain rfl := Option.some.inj h
            exact .first hnone hi (List.nil_append _).symm hv (by simp)
          · rw [if_neg (not_or.mpr ⟨hr, hi⟩)] at h
            exact .kept hnone h
    | @first hnone hinitial pre post r h hgives hpre =>
      -- A value of the source, or one before it, would still be there.
      obtain ⟨hg, hi⟩ : given = none ∧ initial = none := by
        cases hg : given with
        | none => exact ⟨rfl, by simpa [hg] using hinitial⟩
        | some v =>
          rw [hg] at hinitial
          split at hinitial
          · cases hinitial
          · rename_i hk
            exact absurd (.inr hinitial) hk
      have hsplit : s :: sources = (s :: pre) ++ r :: post := by rw [h, List.cons_append]
      refine .first (unreplaced_cons_iff.mpr ⟨fun _ => hungiven.mp hg, hnone⟩) hi hsplit hgives ?_
      exact List.forall_mem_cons.mpr ⟨hungiven.mp hg, hpre⟩

/-- Sources are read one after the other, each to its end. -/
inductive Supplied : Context → List Source → Context → Prop
  | nil {ctx : Context} : Supplied ctx [] ctx
  | cons {ctx final : Context} {s : Source} {sources : List Source} (h : s.Succeeds ctx)
      (hs : Supplied (ctx.after s.operation) sources final) : Supplied ctx (s :: sources) final

/-- After sources that are read to their ends, a path has the value that wins, and none if none wins. -/
theorem Supplied.value_iff_wins {ctx final : Context} {sources : List Source} (h : Supplied ctx sources final)
    (path value : String) : final.tree.get? path = some value ↔ Wins path (ctx.tree.get? path) sources value := by
  induction h with
  | nil => exact wins_nil_iff.symm
  | cons h _ ih =>
    obtain ⟨given, hgiven, hget⟩ := h.exists_given path
    rw [ih, hget, wins_cons_iff hgiven]

/-- A command line between two documents that keep values, over a tree with one value. -/
theorem Supplied.value_iff_wins_of_three :
    let before := Context.empty.after (.readDocument "a = 0" "first.ini" true)
    let sources : List Source :=
      [.document "a = 1\nb = 1" "second.ini" false, .commandLine ["--b=2"] "" 80, .document "b = 3\nc = 3" "third.ini" false]
    ∃ final, Supplied before sources final ∧
      Wins "A" (before.tree.get? "A") sources "0" ∧ Wins "B" (before.tree.get? "B") sources "2" ∧
        Wins "C" (before.tree.get? "C") sources "3" := by
  intro before sources
  have h₁ : (Document.read before.tree "a = 1\nb = 1" "second.ini" false).2 = none := by decide +kernel
  have h₂ : ((before.after (.readDocument "a = 1\nb = 1" "second.ini" false)).readCommandLine ["--b=2"] "" 80
      CommandLine.noPositionals ()).answer = .ok "" := by
    decide +kernel
  have h₃ : (Document.read ((before.after (.readDocument "a = 1\nb = 1" "second.ini" false)).after
      (.readCommandLine ["--b=2"] "" 80 CommandLine.noPositionals ())).tree "b = 3\nc = 3" "third.ini" false).2 = none := by
    decide +kernel
  have h : Supplied before sources _ := .cons h₁ (.cons h₂ (.cons h₃ .nil))
  refine ⟨_, h, (value_iff_wins h "A" "0").mp ?_, (value_iff_wins h "B" "2").mp ?_, (value_iff_wins h "C" "3").mp ?_⟩ <;>
    decide +kernel

end RunParams

import Mathlib.Order.Bounds.Basic
import RunParams.Proofs.CommandLineErrors

/-!
# Prefixes of command lines

Where no other arguments than options are taken, a command line is read from the left to the right. Each option writes its value,
and the first argument up to which the command line is not accepted decides what is answered: the arguments before it have been
applied, and neither it nor any argument behind it has.
-/

namespace RunParams

/-! ## Values at names without dots -/

/-- A value at a name without dots makes no sub-tree, and takes none away. -/
theorem Tree.hasSub_set (t : Tree) {name : String} (hname : DotFree name) (value path : String) :
    (t.set name value).1.hasSub path = t.hasSub path := by
  rw [hasSub, hasSub, sub?, sub?, Tree.set, ofString_of_dotFree hname, setFrom]
  split
  · rfl
  · cases (Path.ofString path).rest with
    | nil => rw [subFrom, subFrom, child?_setValue]
    | cons n ns => rw [subFrom, subFrom, child?_setValue]

namespace CommandLine

open Document (writeEntries)

/-- Values at names without dots can all be written exactly when none of the names is that of a sub-tree. -/
theorem writeEntries_dotFree_iff {t : Tree} {entries : List (String × String)} (h : ∀ n ∈ entries.map (·.1), DotFree n) :
    (writeEntries true t entries).2 = none ↔ ∀ n ∈ entries.map (·.1), t.hasSub n = false := by
  induction entries generalizing t with
  | nil => simp [writeEntries]
  | cons e entries ih =>
    obtain ⟨name, value⟩ := e
    obtain ⟨hname, hrest⟩ := List.forall_mem_cons.mp h
    cases hset : (t.set name value).2 with
    | none =>
      have hsub : t.hasSub name = false := by
        by_contra hsub
        have hfail : (t.set name value).2 = some (.isSubTree name) :=
          (Tree.set_eq_some_iff hname).mpr ⟨by simpa using hsub, rfl⟩
        rw [hset] at hfail
        cases hfail
      rw [writeEntries_true_cons hset, ih hrest, List.map_cons, List.forall_mem_cons]
      constructor
      · intro hnone
        refine ⟨hsub, fun n hn => ?_⟩
        rw [← t.hasSub_set hname value n]
        exact hnone n hn
      · rintro ⟨-, hnone⟩ n hn
        rw [t.hasSub_set hname value n]
        exact hnone n hn
    | some e =>
      have hsub := ((Tree.set_eq_some_iff hname).mp hset).1
      have hwrite : (Document.write true t name value).2 ≠ none := by
        change (t.set name value).2 ≠ none
        simp [hset]
      constructor
      · intro hnone
        exact absurd hnone (Document.writeEntries_cons_ne_none entries hwrite)
      · intro hnone
        rw [hnone name (by simp)] at hsub
        cases hsub

/-- Values that can all be written are written one after the other. -/
theorem writeEntries_eq_foldl {t : Tree} {entries : List (String × String)} (ok : (writeEntries true t entries).2 = none) :
    (writeEntries true t entries).1 = entries.foldl (fun u e => (u.set e.1 e.2).1) t := by
  induction entries generalizing t with
  | nil => rfl
  | cons e entries ih =>
    obtain ⟨name, value⟩ := e
    have hset : (t.set name value).2 = none := by
      by_contra hfail
      have hwrite : (Document.write true t name value).2 ≠ none := hfail
      exact Document.writeEntries_cons_ne_none entries hwrite ok
    rw [writeEntries_true_cons hset] at ok ⊢
    exact ih ok

/-- The names that options give values have no dots. -/
theorem dotFree_of_forms {argv : List String} {entries : List (String × String)}
    (h : List.Forall₂ OptionForm argv entries) : ∀ n ∈ entries.map (·.1), DotFree n := by
  induction h with
  | nil => simp
  | cons hform _ ih => exact List.forall_mem_cons.mpr ⟨hform.dotFree, ih⟩

/-! ## Options that are accepted -/

/-- Where no other arguments than options are taken, all are accepted exactly when they are options for different names, none of
which is that of a sub-tree. -/
theorem read_options_accepted_iff {t : Tree} {argv : List String} :
    (read noPositionals () t argv).2 = .accepted ↔
      ∃ entries, List.Forall₂ OptionForm argv entries ∧ (entries.map (·.1)).Nodup ∧
        ∀ n ∈ entries.map (·.1), t.hasSub n = false := by
  constructor
  · intro h
    have hread : read noPositionals () t argv = (_, .accepted) := Prod.ext rfl h
    obtain ⟨entries, hforms, hnodup, hwrites, -⟩ := read_options_eq_accepted_iff.mp hread
    exact ⟨entries, hforms, hnodup, (writeEntries_dotFree_iff (dotFree_of_forms hforms)).mp (congrArg Prod.snd hwrites)⟩
  · rintro ⟨entries, hforms, hnodup, hsub⟩
    have hwrites := (writeEntries_dotFree_iff (dotFree_of_forms hforms)).mpr hsub
    have hread : read noPositionals () t argv = (⟨_, entries.map (·.1), ()⟩, .accepted) :=
      read_options_eq_accepted_iff.mpr ⟨entries, hforms, hnodup, Prod.ext rfl hwrites, rfl⟩
    exact congrArg Prod.snd hread

/-- The values of options that are accepted are written one after the other. -/
theorem tree_of_options {t : Tree} {argv : List String} {entries : List (String × String)}
    (hforms : List.Forall₂ OptionForm argv entries) (h : (read noPositionals () t argv).2 = .accepted) :
    (read noPositionals () t argv).1.tree = entries.foldl (fun u e => (u.set e.1 e.2).1) t := by
  have hread : read noPositionals () t argv = (_, .accepted) := Prod.ext rfl h
  obtain ⟨entries', hforms', -, hwrites, -⟩ := read_options_eq_accepted_iff.mp hread
  have hunique : Relator.RightUnique OptionForm := fun _ _ _ h h' => h.unique h'
  obtain rfl := List.right_unique_forall₂' hunique hforms hforms'
  have htree := writeEntries_eq_foldl (congrArg Prod.snd hwrites)
  rw [hwrites] at htree
  exact htree

/-! ## The first argument that is not accepted -/

/-- An option that is not accepted leaves the tree. -/
theorem OptionStep.tree_eq {σ : Type} {st st' : ArgumentState σ} {position : Nat} {argument : String} {verdict : Verdict}
    (h : OptionStep st position argument (st', verdict)) (hverdict : verdict ≠ .accepted) : st'.tree = st.tree := by
  cases h with
  | noLetter _ => rfl
  | badKey _ _ => rfl
  | duplicate _ _ _ => rfl
  | noValue _ _ _ _ => rfl
  | blocked _ _ _ => rfl
  | assign _ _ _ => exact absurd rfl hverdict

/-- Where no other arguments than options are taken, an argument that is not accepted leaves the tree. -/
theorem tree_of_stop {argv : List String} {c d : Cursor Unit} {argument : String} {verdict : Verdict}
    (h : advance noPositionals argv c argument = (d, verdict)) (hverdict : verdict ≠ .accepted) :
    d.state.tree = c.state.tree := by
  have hstep := advance_step noPositionals argv c argument
  rw [h] at hstep
  cases hstep with
  | taken _ => exact absurd rfl hverdict
  | option _ _ hoption => exact hoption.tree_eq hverdict
  | blocked _ _ hwrites => cases hwrites
  | refuse _ _ hwrites _ => exact (Prod.mk.inj hwrites).1.symm
  | positional _ _ _ _ => exact absurd rfl hverdict

/-- The handler that refuses every argument looks at the one in question only. -/
theorem advance_congr {argv argv' : List String} {c : Cursor Unit} (h : argv[c.index]? = argv'[c.index]?)
    (argument : String) : advance noPositionals argv c argument = advance noPositionals argv' c argument := by
  unfold advance readPositional noPositionals
  simp only [h]

/-- Options are accepted in one command line if they are accepted in another. -/
theorem reads_congr {argv : List String} {c d : Cursor Unit} {args : List String} (hc : c.taken = 0)
    (h : Reads noPositionals argv c args d) (argv' : List String) :
    Reads noPositionals argv' c args d ∧ d.index = c.index + args.length := by
  have hoptions := isOption_of_reads hc h
  obtain ⟨entries, hentries, rfl⟩ := (reads_options_iff hc hoptions).mp h
  refine ⟨(reads_options_iff hc hoptions).mpr ⟨entries, hentries, rfl⟩, ?_⟩
  rw [Cursor.past, hentries.forms.length_eq]

/-- A command line that is not read to its end has a first argument up to which it is not. What is read up to that argument
decides, whatever comes behind it, and the tree is the one that the arguments before it make. -/
theorem exists_first_stop {t : Tree} {argv : List String} (h : (read noPositionals () t argv).2 ≠ .accepted) :
    ∃ pre argument post, argv = pre ++ argument :: post ∧ (read noPositionals () t pre).2 = .accepted ∧
      (read noPositionals () t argv).1.tree = (read noPositionals () t pre).1.tree ∧
      ∀ rest, read noPositionals () t (pre ++ argument :: rest) = read noPositionals () t argv := by
  obtain ⟨st, hread⟩ : ∃ st, read noPositionals () t argv = (st, (read noPositionals () t argv).2) := ⟨_, rfl⟩
  generalize (read noPositionals () t argv).2 = verdict at h hread
  rw [read_eq_readRest] at hread
  obtain ⟨pre, argument, post, d, e, rfl, hpre, hstop, rfl⟩ := exists_stop hread h
  have hindex : d.index = pre.length := by simpa [start] using (reads_congr rfl hpre []).2
  have hbefore : read noPositionals () t pre = (d.state, .accepted) := by
    rw [read_eq_readRest]
    exact readRest_eq_accepted_iff.mpr ⟨d, (reads_congr rfl hpre pre).1, rfl⟩
  refine ⟨pre, argument, post, rfl, by rw [hbefore], ?_, fun rest => ?_⟩
  · rw [read_eq_readRest, hread, hbefore]
    exact tree_of_stop hstop h
  · rw [read_eq_readRest, read_eq_readRest, hread]
    refine readRest_of_stop (reads_congr rfl hpre _).1 ?_ h rest
    rw [← hstop]
    exact advance_congr (by simp [hindex]) argument

/-- Arguments that are all accepted are accepted up to any of them. -/
theorem read_take_accepted {t : Tree} {args : List String} (h : (read noPositionals () t args).2 = .accepted) (k : Nat) :
    (read noPositionals () t (args.take k)).2 = .accepted := by
  -- An argument among the first that is not accepted would decide all of them.
  by_contra hfail
  obtain ⟨before, stop, behind, hsplit, -, -, hdecides⟩ := exists_first_stop hfail
  have hread := hdecides (behind ++ args.drop k)
  rw [← List.cons_append, ← List.append_assoc, ← hsplit, List.take_append_drop] at hread
  rw [hread] at h
  exact hfail h

end CommandLine

/-! ## Whole command lines -/

open CommandLine

namespace Context

/-- Without a preamble the answer is empty exactly when the command line is read to its end. -/
theorem answer_eq_ok_iff {σ : Type} {ctx : Context} {argv : List String} {width : Int} {handler : PositionalHandler σ}
    {state : σ} :
    (ctx.readCommandLine argv "" width handler state).answer = .ok "" ↔
      (read handler state ctx.tree argv).2 = .accepted := by
  constructor
  · intro h
    obtain ⟨st, hread⟩ := exists_read_of_answer h
    rw [hread]
  · intro h
    have hread : read handler state ctx.tree argv = (_, .accepted) := Prod.ext rfl h
    rw [readCommandLine_of_accepted rfl hread]

/-- Without a preamble the result is that of the reading. -/
theorem readCommandLine_congr {σ : Type} {ctx : Context} {argv argv' : List String} {handler : PositionalHandler σ}
    {state : σ} (h : read handler state ctx.tree argv = read handler state ctx.tree argv') (width : Int) :
    ctx.readCommandLine argv "" width handler state = ctx.readCommandLine argv' "" width handler state := by
  have hempty : "".isEmpty = true := rfl
  simp only [readCommandLine, hempty, if_true, h]

/-- Without a preamble the context has the tree that was read into. -/
theorem context_readCommandLine {σ : Type} (ctx : Context) (argv : List String) (width : Int)
    (handler : PositionalHandler σ) (state : σ) :
    (ctx.readCommandLine argv "" width handler state).context =
      { ctx with tree := (read handler state ctx.tree argv).1.tree } := by
  have hempty : "".isEmpty = true := rfl
  simp only [readCommandLine, hempty, if_true]
  split <;> rfl

/-- Where no other arguments are taken, and without a preamble, a command line is accepted exactly when its arguments are options
for different names, none of which is that of a sub-tree; their values are then written one after the other. If it is not, then it
has a first prefix that is not. All longer ones have the same result as that one, and so has the whole command line; nothing is
written but the values of the arguments before its last. -/
theorem readCommandLine_prefixes (ctx : Context) (argv : List String) (width : Int) :
    let result (args : List String) := ctx.readCommandLine args "" width noPositionals ()
    ((result argv).answer = .ok "" ↔
      ∃ entries, List.Forall₂ OptionForm argv entries ∧ (entries.map (·.1)).Nodup ∧
        ∀ n ∈ entries.map (·.1), ctx.tree.hasSub n = false) ∧
    (∀ entries, List.Forall₂ OptionForm argv entries → (result argv).answer = .ok "" →
      (result argv).context = { ctx with tree := entries.foldl (fun t e => (t.set e.1 e.2).1) ctx.tree }) ∧
    ((result argv).answer ≠ .ok "" →
      ∃ n, IsLeast {k | (result (argv.take k)).answer ≠ .ok ""} n ∧ 0 < n ∧ n ≤ argv.length ∧
        (∀ k, n ≤ k → result (argv.take k) = result argv) ∧
        (result argv).context = (result (argv.take (n - 1))).context) := by
  intro result
  refine ⟨answer_eq_ok_iff.trans read_options_accepted_iff, ?_, ?_⟩
  · intro entries hforms hanswer
    rw [context_readCommandLine, tree_of_options hforms (answer_eq_ok_iff.mp hanswer)]
  · intro hanswer
    have hstop : (read noPositionals () ctx.tree argv).2 ≠ .accepted := fun h => hanswer (answer_eq_ok_iff.mpr h)
    obtain ⟨pre, argument, post, rfl, hpre, htree, hrest⟩ := exists_first_stop hstop
    have hafter : ∀ k, pre.length + 1 ≤ k → result ((pre ++ argument :: post).take k) = result (pre ++ argument :: post) := by
      intro k hk
      obtain ⟨j, rfl⟩ := Nat.exists_eq_add_of_le hk
      have htake : (pre ++ argument :: post).take (pre.length + 1 + j) = pre ++ argument :: post.take j := by
        rw [List.take_append, List.take_of_length_le (by omega), show pre.length + 1 + j - pre.length = j + 1 by omega,
          List.take_succ_cons]
      rw [htake]
      exact readCommandLine_congr (hrest _) width
    refine ⟨pre.length + 1, ⟨?_, ?_⟩, by omega, by simp, hafter, ?_⟩
    · rw [Set.mem_ofPred_eq, hafter _ (Nat.le_refl _)]
      exact hanswer
    · intro k hk
      by_contra hlt
      refine hk (answer_eq_ok_iff.mpr ?_)
      rw [List.take_append_of_le_length (by omega : k ≤ pre.length)]
      exact read_take_accepted hpre k
    · rw [Nat.add_sub_cancel, List.take_left, context_readCommandLine, context_readCommandLine, htree]

/-- The third option has the name of a sub-tree; the two before it are applied. -/
theorem readCommandLine_prefixes_of_sub_tree :
    let ctx : Context := ⟨.empty, (Tree.empty.set "B.C" "0").1⟩
    let result (args : List String) := ctx.readCommandLine args "" 80 noPositionals ()
    let argv := ["--a=1", "-x=2=3", "--b=4", "--c=5"]
    (result argv).answer = .error (.tree (.isSubTree "B")) ∧
      (∃ n, IsLeast {k | (result (argv.take k)).answer ≠ .ok ""} n ∧
        (result argv).context = (result (argv.take (n - 1))).context) ∧
      ∃ entries, List.Forall₂ OptionForm (argv.take 2) entries ∧
        (result (argv.take 2)).context = { ctx with tree := entries.foldl (fun t e => (t.set e.1 e.2).1) ctx.tree } := by
  intro ctx result argv
  have herror : (result argv).answer = .error (.tree (.isSubTree "B")) := by decide +kernel
  have hok : (result (argv.take 2)).answer = .ok "" := by decide +kernel
  obtain ⟨-, -, hstop⟩ := readCommandLine_prefixes ctx argv 80
  obtain ⟨hiff, htree, -⟩ := readCommandLine_prefixes ctx (argv.take 2) 80
  obtain ⟨n, hleast, -, -, -, hcontext⟩ := hstop (fun h => nomatch herror.symm.trans h)
  obtain ⟨entries, hforms, -, -⟩ := hiff.mp hok
  exact ⟨herror, ⟨n, hleast, hcontext⟩, entries, hforms, htree entries hforms hok⟩

end Context

end RunParams

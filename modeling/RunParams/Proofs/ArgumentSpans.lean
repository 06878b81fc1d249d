import RunParams.Proofs.ArgumentPrefixes

/-!
# Spans of arguments

Reading comes to an argument, reads it as an option or hands it to the handler, and goes on behind it or behind the span of
arguments that the handler takes. So the spans of the handler's calls and the options that are read divide the arguments: none is
left out, none belongs to two of them, and no option is read inside of a span.
-/

namespace RunParams

namespace CommandLine

variable {σ : Type} {handler : PositionalHandler σ} {argv : List String}

/-! ## Events -/

/-- What is done with an argument that reading comes to: it is read as an option, or the handler is called and takes a number of
arguments. -/
inductive Event (σ : Type)
  | option (index : Nat) (argument : String) (before : ArgumentState σ)
  | call (call : PositionalCall) (count : Nat) (before : ArgumentState σ)

namespace Event

/-- The index of the argument. -/
def index : Event σ → Nat
  | option index _ _ => index
  | call c _ _ => c.index

/-- How many arguments are done with. -/
def count : Event σ → Nat
  | option _ _ _ => 1
  | call _ count _ => count

/-- What was read before. -/
def before : Event σ → ArgumentState σ
  | option _ _ before => before
  | call _ _ before => before

/-- The call of the handler, and how many arguments it takes. -/
def call? : Event σ → Option (PositionalCall × Nat)
  | option _ _ _ => none
  | call c count _ => some (c, count)

/-- The index of an option. -/
def option? : Event σ → Option Nat
  | option index _ _ => some index
  | call _ _ _ => none

/-- How often the handler is called. -/
def handled (e : Event σ) : Nat :=
  e.call?.toList.length

/-- An argument belongs to an event. -/
def Covers (e : Event σ) (i : Nat) : Prop :=
  e.index ≤ i ∧ i < e.index + e.count

/-- A name counts as seen after an event: an option gives it a value, or the handler says so. -/
inductive Adds (handler : PositionalHandler σ) : Event σ → String → Prop
  | option {index : Nat} {argument name value : String} {before : ArgumentState σ} (h : OptionForm argument (name, value)) :
      Adds handler (.option index argument before) name
  | call {c : PositionalCall} {count : Nat} {before : ArgumentState σ} {name : String}
      (h : name ∈ (handler before.handler c).seen) : Adds handler (.call c count before) name

theorem of_call? {e : Event σ} {p : PositionalCall × Nat} (h : e.call? = some p) : e.index = p.1.index ∧ e.count = p.2 := by
  cases e with
  | option _ _ _ => cases h
  | call c count _ =>
    obtain rfl := Option.some.inj h
    exact ⟨rfl, rfl⟩

theorem of_option? {e : Event σ} {i : Nat} (h : e.option? = some i) : e.index = i ∧ e.count = 1 := by
  cases e with
  | option index _ _ =>
    obtain rfl := Option.some.inj h
    exact ⟨rfl, rfl⟩
  | call _ _ _ => cases h

end Event

/-- The calls of the handler in order, each with the number of arguments that it takes. -/
def calls (es : List (Event σ)) : List (PositionalCall × Nat) :=
  es.filterMap Event.call?

/-- The indices of the options that are read, in order. -/
def options (es : List (Event σ)) : List Nat :=
  es.filterMap Event.option?

/-- An argument lies in the span of a call. -/
def InSpan (es : List (Event σ)) (i : Nat) : Prop :=
  ∃ p ∈ calls es, p.1.index ≤ i ∧ i < p.1.index + p.2

/-- What reading does at the index of an argument, after `handled` calls of the handler. -/
inductive Visit (handler : PositionalHandler σ) (argv : List String) (index handled : Nat) (st : ArgumentState σ) :
    Event σ → ArgumentState σ → Verdict → Prop
  | option {argument : String} {st' : ArgumentState σ} {verdict : Verdict} (h : argv[index]? = some argument)
      (ho : isOption argument = true) (hread : readOption st (index + 1) argument = (st', verdict)) :
      Visit handler argv index handled st (.option index argument st) st' verdict
  | call {argument : String} {st' : ArgumentState σ} {verdict : Verdict} {count : Nat} (h : argv[index]? = some argument)
      (ho : isOption argument = false)
      (hread : readPositional handler st ⟨st.seen, argv, index, handled⟩ argument = (st', verdict, count)) :
      Visit handler argv index handled st (.call ⟨st.seen, argv, index, handled⟩ count st) st' verdict

/-- What reading does from an index on, one event after the other, with the index at which it stops and how it ends. -/
inductive Trace (handler : PositionalHandler σ) (argv : List String) :
    (index handled : Nat) → ArgumentState σ → List (Event σ) → (stop : Nat) → ArgumentState σ × Verdict → Prop
  | done {index handled : Nat} {st : ArgumentState σ} (h : argv.length ≤ index) :
      Trace handler argv index handled st [] argv.length (st, .accepted)
  | next {index handled stop : Nat} {st st' : ArgumentState σ} {e : Event σ} {es : List (Event σ)}
      {out : ArgumentState σ × Verdict} (hvisit : Visit handler argv index handled st e st' .accepted)
      (hs : Trace handler argv (index + e.count) (handled + e.handled) st' es stop out) :
      Trace handler argv index handled st (e :: es) stop out
  | stop {index handled : Nat} {st st' : ArgumentState σ} {e : Event σ} {verdict : Verdict}
      (hvisit : Visit handler argv index handled st e st' verdict) (hverdict : verdict ≠ .accepted) :
      Trace handler argv index handled st [e] index (st', verdict)

/-! ## What one event does -/

/-- A call that is accepted takes at least one argument, and adds the names that the handler says to those seen. -/
theorem of_accepted {st st' : ArgumentState σ} {call : PositionalCall} {argument : String} {count : Nat}
    (h : readPositional handler st call argument = (st', .accepted, count)) :
    0 < count ∧ st'.seen = (handler st.handler call).seen.foldl addSeen st.seen := by
  unfold readPositional at h
  dsimp only at h
  split at h
  · cases h
  · split at h
    · cases h
    · rename_i hcount
      obtain ⟨rfl, -, rfl⟩ := h
      exact ⟨by omega, rfl⟩

theorem mem_addSeen {seen : List String} {name n : String} : n ∈ addSeen seen name ↔ n ∈ seen ∨ n = name := by
  unfold addSeen
  split
  · rename_i hmem
    constructor
    · exact .inl
    · rintro (hn | rfl)
      · exact hn
      · exact List.contains_iff_mem.mp hmem
  · simp

theorem mem_foldl_addSeen {seen names : List String} {n : String} : n ∈ names.foldl addSeen seen ↔ n ∈ seen ∨ n ∈ names := by
  induction names generalizing seen with
  | nil => simp
  | cons name names ih => rw [List.foldl_cons, ih, mem_addSeen, List.mem_cons, or_assoc]

namespace Visit

variable {index handled : Nat} {st st' : ArgumentState σ} {e : Event σ} {verdict : Verdict}

theorem index_eq (h : Visit handler argv index handled st e st' verdict) : e.index = index := by
  cases h <;> rfl

theorem before_eq (h : Visit handler argv index handled st e st' verdict) : e.before = st := by
  cases h <;> rfl

/-- An event tells where and when it is. -/
theorem at_event (h : Visit handler argv index handled st e st' verdict) :
    Visit handler argv e.index handled e.before e st' verdict := by
  rwa [h.index_eq, h.before_eq]

theorem index_lt (h : Visit handler argv index handled st e st' verdict) : index < argv.length := by
  cases h with
  | option h _ _ => exact (List.getElem?_eq_some_iff.mp h).1
  | call h _ _ => exact (List.getElem?_eq_some_iff.mp h).1

theorem count_pos (h : Visit handler argv index handled st e st' .accepted) : 0 < e.count := by
  cases h with
  | option _ _ _ => exact Nat.one_pos
  | call _ _ hread => exact (of_accepted hread).1

/-- A call is about the argument at the index, which is no option, and counts the calls before it. -/
theorem of_call? (h : Visit handler argv index handled st e st' verdict) {p : PositionalCall × Nat} (hp : e.call? = some p) :
    p.1.index = index ∧ p.1.handled = handled ∧ p.1.argv = argv ∧ ∃ a, argv[index]? = some a ∧ isOption a = false := by
  cases h with
  | option _ _ _ => cases hp
  | @call argument st' verdict count h ho _ =>
    obtain rfl := Option.some.inj hp
    exact ⟨rfl, rfl, rfl, argument, h, ho⟩

/-- After an event that is accepted the names seen are those of before and those that it adds. -/
theorem mem_seen (h : Visit handler argv index handled st e st' .accepted) (n : String) :
    n ∈ st'.seen ↔ n ∈ st.seen ∨ e.Adds handler n := by
  cases h with
  | @option argument _ _ _ ho hread =>
    have hstep := readOption_step st (index + 1) ho
    rw [hread] at hstep
    cases hstep with
    | @assign name value hform hnew ok =>
      rw [List.mem_append, List.mem_singleton]
      refine or_congr Iff.rfl ⟨?_, ?_⟩
      · rintro rfl
        exact .option hform
      · rintro ⟨hform'⟩
        exact congrArg Prod.fst (hform'.unique hform)
  | call _ _ hread =>
    rw [(of_accepted hread).2, mem_foldl_addSeen]
    refine or_congr Iff.rfl ⟨.call, ?_⟩
    rintro ⟨h⟩
    assumption

/-- An option that is accepted gives a value to a name that was not seen. -/
theorem exists_form {i : Nat} {argument : String} {st₀ : ArgumentState σ}
    (h : Visit handler argv index handled st (.option i argument st₀) st' .accepted) :
    ∃ name value, OptionForm argument (name, value) ∧ name ∉ st₀.seen := by
  cases h with
  | option _ ho hread =>
    have hstep := readOption_step st (index + 1) ho
    rw [hread] at hstep
    cases hstep with
    | assign hform hnew _ => exact ⟨_, _, hform, hnew⟩

end Visit

/-- Where reading comes to an argument, it does one thing, and goes on behind what that is done with. -/
theorem exists_visit {c : Cursor σ} {argument : String} (hc : c.taken = 0) (h : argv[c.index]? = some argument) :
    ∃ e st verdict, Visit handler argv c.index c.handled c.state e st verdict ∧
      advance handler argv c argument = (⟨c.index + 1, e.count - 1, c.handled + e.handled, st⟩, verdict) := by
  by_cases ho : isOption argument = true
  · refine ⟨_, _, _, .option h ho rfl, ?_⟩
    simp only [advance, hc, ho, if_true]
    rfl
  · refine ⟨_, _, _, .call h (by simpa using ho) rfl, ?_⟩
    simp only [advance, hc, ho]
    rfl

/-- Reading from a cursor on has a trace, which starts behind the span that the cursor lies in. -/
theorem exists_trace {c : Cursor σ} {args : List String} (hargs : argv.drop c.index = args) :
    ∃ es stop, Trace handler argv (c.index + c.taken) c.handled c.state es stop (readRest handler argv c args) := by
  induction args generalizing c with
  | nil =>
    have hle : argv.length ≤ c.index := List.drop_eq_nil_iff.mp hargs
    exact ⟨[], argv.length, .done (by omega)⟩
  | cons argument rest ih =>
    have hget : argv[c.index]? = some argument := by
      rw [← Nat.add_zero c.index, ← List.getElem?_drop, hargs]
      rfl
    have hrest : argv.drop (c.index + 1) = rest := by
      rw [← List.drop_drop, hargs]
      rfl
    rw [readRest_cons]
    cases htaken : c.taken with
    | succ more =>
      obtain ⟨es, stop, htrace⟩ := ih (c := ⟨c.index + 1, more, c.handled, c.state⟩) hrest
      have hskip : advance handler argv c argument = (⟨c.index + 1, more, c.handled, c.state⟩, .accepted) := by
        rw [advance, htaken]
      rw [hskip]
      refine ⟨es, stop, ?_⟩
      rw [show c.index + (more + 1) = c.index + 1 + more by omega]
      exact htrace
    | zero =>
      obtain ⟨e, st, verdict, hvisit, hadvance⟩ := @exists_visit σ handler argv c argument htaken hget
      rw [hadvance]
      by_cases hverdict : verdict = .accepted
      · subst hverdict
        obtain ⟨es, stop, htrace⟩ := ih (c := ⟨c.index + 1, e.count - 1, c.handled + e.handled, st⟩) hrest
        have hpos := hvisit.count_pos
        dsimp only at htrace
        rw [show c.index + 1 + (e.count - 1) = c.index + e.count by omega] at htrace
        exact ⟨e :: es, stop, .next hvisit htrace⟩
      · refine ⟨[e], c.index, ?_⟩
        split
        · rename_i heq
          exact absurd (Prod.mk.inj heq).2 hverdict
        · rename_i heq
          obtain ⟨rfl, rfl⟩ := Prod.mk.inj heq
          exact .stop hvisit hverdict

/-! ## What a trace says -/

/-- At an index one thing is done. -/
theorem Visit.unique {index handled : Nat} {st st₁ st₂ : ArgumentState σ} {e₁ e₂ : Event σ} {verdict₁ verdict₂ : Verdict}
    (h₁ : Visit handler argv index handled st e₁ st₁ verdict₁) (h₂ : Visit handler argv index handled st e₂ st₂ verdict₂) :
    e₁ = e₂ ∧ st₁ = st₂ ∧ verdict₁ = verdict₂ := by
  cases h₁ with
  | option h ho hread =>
    cases h₂ with
    | option h' _ hread' =>
      obtain rfl := Option.some.inj (h.symm.trans h')
      obtain ⟨rfl, rfl⟩ := Prod.mk.inj (hread.symm.trans hread')
      exact ⟨rfl, rfl, rfl⟩
    | call h' ho' _ =>
      obtain rfl := Option.some.inj (h.symm.trans h')
      exact absurd (ho.symm.trans ho') Bool.noConfusion
  | call h ho hread =>
    cases h₂ with
    | option h' ho' _ =>
      obtain rfl := Option.some.inj (h.symm.trans h')
      exact absurd (ho.symm.trans ho') Bool.noConfusion
    | call h' _ hread' =>
      obtain rfl := Option.some.inj (h.symm.trans h')
      have hreads := hread.symm.trans hread'
      simp only [Prod.mk.injEq] at hreads
      obtain ⟨rfl, rfl, rfl⟩ := hreads
      exact ⟨rfl, rfl, rfl⟩

namespace Trace

variable {index handled stop : Nat} {st : ArgumentState σ} {es : List (Event σ)} {out : ArgumentState σ × Verdict}

/-- There is one trace from an index on. -/
theorem unique {es' : List (Event σ)} {stop' : Nat} {out' : ArgumentState σ × Verdict}
    (h : Trace handler argv index handled st es stop out) (h' : Trace handler argv index handled st es' stop' out') :
    es' = es ∧ stop' = stop ∧ out' = out := by
  induction h generalizing es' stop' out' with
  | done h =>
    cases h' with
    | done _ => exact ⟨rfl, rfl, rfl⟩
    | next hvisit _ => exact absurd hvisit.index_lt (by omega)
    | stop hvisit _ => exact absurd hvisit.index_lt (by omega)
  | next hvisit _ ih =>
    cases h' with
    | done h => exact absurd hvisit.index_lt (by omega)
    | next hvisit' hs' =>
      obtain ⟨rfl, rfl, -⟩ := hvisit.unique hvisit'
      obtain ⟨rfl, rfl, rfl⟩ := ih hs'
      exact ⟨rfl, rfl, rfl⟩
    | stop hvisit' hverdict => exact absurd (hvisit.unique hvisit').2.2.symm hverdict
  | stop hvisit hverdict =>
    cases h' with
    | done h => exact absurd hvisit.index_lt (by omega)
    | next hvisit' _ => exact absurd (hvisit.unique hvisit').2.2 hverdict
    | stop hvisit' _ =>
      obtain ⟨rfl, rfl, rfl⟩ := hvisit.unique hvisit'
      exact ⟨rfl, rfl, rfl⟩

/-- Each event is what is done at its index with what was read before. If all is accepted, it is. -/
theorem visit_of_mem (h : Trace handler argv index handled st es stop out) :
    ∀ e ∈ es, ∃ handled st' verdict, Visit handler argv e.index handled e.before e st' verdict ∧
      (out.2 = .accepted → verdict = .accepted) := by
  induction h with
  | done _ => simp
  | next hvisit _ ih => exact List.forall_mem_cons.mpr ⟨⟨_, _, .accepted, hvisit.at_event, fun _ => rfl⟩, ih⟩
  | stop hvisit _ => exact List.forall_mem_singleton.mpr ⟨_, _, _, hvisit.at_event, fun h => h⟩

theorem le_index (h : Trace handler argv index handled st es stop out) : ∀ e ∈ es, index ≤ e.index := by
  induction h with
  | done _ => simp
  | next hvisit _ ih => exact List.forall_mem_cons.mpr ⟨hvisit.index_eq.ge, fun f hf => Nat.le_of_add_right_le (ih f hf)⟩
  | stop hvisit _ => exact List.forall_mem_singleton.mpr hvisit.index_eq.ge

/-- An event begins behind what the ones before it are done with. -/
theorem pairwise (h : Trace handler argv index handled st es stop out) :
    es.Pairwise fun e f => 0 < e.count ∧ e.index + e.count ≤ f.index := by
  induction h with
  | done _ => exact .nil
  | next hvisit hs ih =>
    refine .cons (fun f hf => ⟨hvisit.count_pos, ?_⟩) ih
    rw [hvisit.index_eq]
    exact hs.le_index f hf
  | stop _ _ => exact List.pairwise_singleton _ _

/-- An argument belongs to one event at most. -/
theorem eq_of_covers (h : Trace handler argv index handled st es stop out) {e f : Event σ} (he : e ∈ es) (hf : f ∈ es) {i : Nat}
    (hei : e.Covers i) (hfi : f.Covers i) : e = f := by
  have hbehind {e f : Event σ} (hef : 0 < e.count ∧ e.index + e.count ≤ f.index) (hei : e.Covers i) (hfi : f.Covers i) :
      False :=
    Nat.lt_irrefl i (hei.2.trans_le (hef.2.trans hfi.1))
  have hsame : es.Pairwise fun e f => e.Covers i → f.Covers i → e = f :=
    h.pairwise.imp fun hef hei hfi => (hbehind hef hei hfi).elim
  have hflip : es.Pairwise (flip fun e f => e.Covers i → f.Covers i → e = f) :=
    h.pairwise.imp fun hef hfi hei => (hbehind hef hei hfi).elim
  exact List.Pairwise.forall_of_forall_of_flip (fun _ _ _ _ => rfl) hsame hflip he hf hei hfi

/-- An argument before the end belongs to an event. -/
theorem exists_covers (h : Trace handler argv index handled st es stop out) {i : Nat} (hi : index ≤ i) (hstop : i < stop) :
    ∃ e ∈ es, e.Covers i := by
  induction h with
  | done h => omega
  | @next index _ _ _ _ e es _ hvisit _ ih =>
    by_cases hlt : i < index + e.count
    · refine ⟨e, List.mem_cons_self, ?_⟩
      rw [Event.Covers, hvisit.index_eq]
      exact ⟨hi, hlt⟩
    · obtain ⟨f, hf, hfi⟩ := ih (by omega) hstop
      exact ⟨f, List.mem_cons_of_mem e hf, hfi⟩
  | stop _ _ => omega

/-- Reading that is accepted stops behind the last argument. -/
theorem stop_eq_length (h : Trace handler argv index handled st es stop out) (haccepted : out.2 = .accepted) :
    stop = argv.length := by
  induction h with
  | done _ => rfl
  | next _ _ ih => exact ih haccepted
  | stop _ hverdict => exact absurd haccepted hverdict

/-- Reading that is not accepted stops at the index of the last event. -/
theorem index_getLast? (h : Trace handler argv index handled st es stop out) (hstop : out.2 ≠ .accepted) :
    es.getLast?.map Event.index = some stop := by
  induction h with
  | done _ => exact absurd rfl hstop
  | next _ _ ih =>
    obtain ⟨f, hf, hindex⟩ := Option.map_eq_some_iff.mp (ih hstop)
    rw [List.getLast?_cons, hf]
    exact congrArg some hindex
  | stop hvisit _ => exact congrArg some hvisit.index_eq

/-- There are no more events than arguments. -/
theorem length_le (h : Trace handler argv index handled st es stop out) : es.length ≤ argv.length - index := by
  induction h with
  | done _ => exact Nat.zero_le _
  | next hvisit _ ih =>
    have hpos := hvisit.count_pos
    have hlt := hvisit.index_lt
    rw [List.length_cons]
    omega
  | stop hvisit _ =>
    have hlt := hvisit.index_lt
    rw [List.length_singleton]
    omega

/-- The calls are numbered one after the other. -/
theorem handled_calls (h : Trace handler argv index handled st es stop out) :
    (calls es).map (·.1.handled) = List.range' handled (calls es).length := by
  induction h with
  | done _ => rfl
  | next hvisit _ ih =>
    cases hvisit with
    | option _ _ _ => exact ih
    | call _ _ _ => exact congrArg (_ :: ·) ih
  | stop hvisit _ => cases hvisit <;> rfl

/-- No option is read twice. -/
theorem nodup_options (h : Trace handler argv index handled st es stop out) : (options es).Nodup := by
  refine List.pairwise_filterMap.mpr (h.pairwise.imp fun {e f} hef i hi j hj => ?_)
  obtain ⟨hindex, hcount⟩ := Event.of_option? hi
  obtain ⟨hindex', -⟩ := Event.of_option? hj
  omega

/-- The names seen before an event are those seen at the start and those that the events before it add. -/
theorem mem_seen (h : Trace handler argv index handled st es stop out) {pre post : List (Event σ)} {e : Event σ}
    (hes : es = pre ++ e :: post) (n : String) : n ∈ e.before.seen ↔ n ∈ st.seen ∨ ∃ f ∈ pre, f.Adds handler n := by
  induction h generalizing pre with
  | done _ => simp at hes
  | next hvisit _ ih =>
    cases pre with
    | nil =>
      obtain ⟨rfl, -⟩ := List.cons.inj hes
      simp [hvisit.before_eq]
    | cons f pre =>
      obtain ⟨rfl, hrest⟩ := List.cons.inj hes
      rw [ih hrest, hvisit.mem_seen, List.exists_mem_cons_iff, or_assoc]
  | stop hvisit _ =>
    obtain ⟨rfl, hcons⟩ | ⟨-, hnil⟩ := List.singleton_eq_append_iff.mp hes
    · obtain ⟨rfl, -⟩ := List.cons.inj hcons
      simp [hvisit.before_eq]
    · cases hnil

end Trace

/-! ## Calls and options -/

/-- How the calls of a handler and the options divide the arguments before the one at which reading stops. -/
structure Divides (argv : List String) (es : List (Event σ)) (stop : Nat) : Prop where
  /-- Each call is told how many there were before it. -/
  numbered : (calls es).map (·.1.handled) = List.range (calls es).length
  /-- A call is about an argument behind those of the calls before it and behind what they take. -/
  increasing : (calls es).Pairwise fun p q => p.1.index < q.1.index ∧ p.1.index + p.2 ≤ q.1.index
  /-- A call is about an argument that is not an option. -/
  positional : ∀ p ∈ calls es, p.1.argv = argv ∧ ∃ argument, argv[p.1.index]? = some argument ∧ isOption argument = false
  /-- Outside of the spans there are only options, and each of them is read once. -/
  once : ∀ i < stop, ¬InSpan es i → (∃ argument, argv[i]? = some argument ∧ isOption argument = true) ∧ (options es).count i = 1
  /-- What lies in a span is not read as an option. -/
  never : ∀ i, InSpan es i → i ∉ options es
  /-- There are no more calls than arguments. -/
  bounded : (calls es).length ≤ argv.length

theorem Trace.divides {st : ArgumentState σ} {es : List (Event σ)} {stop : Nat} {out : ArgumentState σ × Verdict}
    (h : Trace handler argv 0 0 st es stop out) : Divides argv es stop where
  numbered := by rw [h.handled_calls, List.range_eq_range']
  increasing := by
    refine List.pairwise_filterMap.mpr (h.pairwise.imp fun {e f} hef p hp q hq => ?_)
    obtain ⟨hindex, hcount⟩ := Event.of_call? hp
    obtain ⟨hindex', -⟩ := Event.of_call? hq
    omega
  positional := by
    intro p hp
    obtain ⟨e, he, hp⟩ := List.mem_filterMap.mp hp
    obtain ⟨handled, st', verdict, hvisit, -⟩ := h.visit_of_mem e he
    obtain ⟨hindex, -, hargv, hargument⟩ := hvisit.of_call? hp
    rw [hindex]
    exact ⟨hargv, hargument⟩
  once := by
    intro i hi hspan
    obtain ⟨e, he, hcovers⟩ := h.exists_covers (Nat.zero_le i) hi
    cases e with
    | call c count before => exact absurd ⟨(c, count), List.mem_filterMap.mpr ⟨_, he, rfl⟩, hcovers⟩ hspan
    | option j argument before =>
      obtain rfl : i = j := Nat.le_antisymm (Nat.le_of_lt_succ hcovers.2) hcovers.1
      obtain ⟨handled, st', verdict, hvisit, -⟩ := h.visit_of_mem _ he
      refine ⟨?_, List.count_eq_one_of_mem h.nodup_options (List.mem_filterMap.mpr ⟨_, he, rfl⟩)⟩
      cases hvisit with
      | option hget ho _ => exact ⟨argument, hget, ho⟩
  never := by
    rintro i ⟨p, hp, hi⟩ hoption
    obtain ⟨e, he, hp⟩ := List.mem_filterMap.mp hp
    obtain ⟨f, hf, hoption⟩ := List.mem_filterMap.mp hoption
    obtain ⟨hindex, hcount⟩ := Event.of_call? hp
    obtain ⟨hindex', hcount'⟩ := Event.of_option? hoption
    have hei : e.Covers i := by
      rw [Event.Covers, hindex, hcount]
      exact hi
    have hfi : f.Covers i := by
      rw [Event.Covers, hindex', hcount']
      exact ⟨Nat.le_refl i, Nat.lt_succ_self i⟩
    obtain rfl := h.eq_of_covers he hf hei hfi
    cases e with
    | option _ _ _ => cases hp
    | call _ _ _ => cases hoption
  bounded := (List.length_filterMap_le _ es).trans (h.length_le.trans (Nat.sub_le _ 0))

/-- An option that is accepted gives a value to a name that neither an option nor a call before it has added. -/
theorem Trace.exists_form {st : ArgumentState σ} {es : List (Event σ)} {stop : Nat} {out : ArgumentState σ × Verdict}
    {index handled : Nat} (h : Trace handler argv index handled st es stop out) (haccepted : out.2 = .accepted)
    {pre post : List (Event σ)} {i : Nat} {argument : String} {before : ArgumentState σ}
    (hes : es = pre ++ .option i argument before :: post) :
    ∃ name value, OptionForm argument (name, value) ∧ name ∉ before.seen ∧ ∀ f ∈ pre, ¬f.Adds handler name := by
  obtain ⟨handled', st', verdict, hvisit, hverdict⟩ := h.visit_of_mem (.option i argument before) (by simp [hes])
  obtain rfl := hverdict haccepted
  obtain ⟨name, value, hform, hnew⟩ := hvisit.exists_form
  exact ⟨name, value, hform, hnew, fun f hf hadds => hnew ((h.mem_seen hes name).mpr (.inr ⟨f, hf, hadds⟩))⟩

end CommandLine

/-! ## Whole command lines -/

open CommandLine

/-- Without a preamble, reading a command line has one trace, whatever the handler does. Its calls are numbered from zero, and each
is about an argument that is no option and that lies behind the spans of the calls before it. The arguments before the one at which
reading stops that lie outside of all spans are options, and each of them is read once; no option is read inside of a span. The
names seen when an argument is read are those that options and calls before it have added. If the answer is empty, each argument is
read as an option or lies in a span, and each option gives a value to a name that no option or call before it has added. -/
theorem Context.readCommandLine_divides {σ : Type} (ctx : Context) (argv : List String) (width : Int)
    (handler : PositionalHandler σ) (state : σ) :
    let result := ctx.readCommandLine argv "" width handler state
    ∃ es stop, Trace handler argv 0 0 ⟨ctx.tree, [], state⟩ es stop (read handler state ctx.tree argv) ∧
      (∀ es' stop' out', Trace handler argv 0 0 ⟨ctx.tree, [], state⟩ es' stop' out' → es' = es ∧ stop' = stop) ∧
      Divides argv es stop ∧
      (∀ pre e post, es = pre ++ e :: post → ∀ n, n ∈ e.before.seen ↔ ∃ f ∈ pre, f.Adds handler n) ∧
      (result.answer ≠ .ok "" → es.getLast?.map Event.index = some stop) ∧
      (result.answer = .ok "" → stop = argv.length ∧ (∀ i < argv.length, InSpan es i ∨ i ∈ options es) ∧
        ∀ pre i argument before post, es = pre ++ .option i argument before :: post →
          ∃ name value, OptionForm argument (name, value) ∧ name ∉ before.seen ∧ ∀ f ∈ pre, ¬f.Adds handler name) := by
  intro result
  have hresult : result.answer = .ok "" ↔ (read handler state ctx.tree argv).2 = .accepted := answer_eq_ok_iff
  obtain ⟨es, stop, htrace⟩ := @exists_trace σ handler argv (start ctx.tree state) argv rfl
  rw [← read_eq_readRest] at htrace
  have hdivides : Divides argv es stop := htrace.divides
  refine ⟨es, stop, htrace, ?_, hdivides, ?_, ?_, ?_⟩
  · intro es' stop' out' htrace'
    obtain ⟨hes, hstop, -⟩ := htrace.unique htrace'
    exact ⟨hes, hstop⟩
  · intro pre e post hes n
    simpa [start] using htrace.mem_seen hes n
  · intro hanswer
    exact htrace.index_getLast? fun haccepted => hanswer (hresult.mpr haccepted)
  · intro hanswer
    have haccepted := hresult.mp hanswer
    have hstop := htrace.stop_eq_length haccepted
    refine ⟨hstop, fun i hi => ?_, fun pre i argument before post hes => htrace.exists_form haccepted hes⟩
    by_cases hspan : InSpan es i
    · exact .inl hspan
    · obtain ⟨-, hcount⟩ := hdivides.once i (hstop ▸ hi) hspan
      exact .inr (List.count_pos_iff.mp (hcount ▸ Nat.one_pos))

/-- A handler that takes two arguments takes one that looks like an option, and then more than there are. -/
theorem Context.readCommandLine_divides_of_pairs :
    let ctx : Context := ⟨.empty, .empty⟩
    let handler : PositionalHandler Unit := fun _ _ => ⟨(), [("Input", "x")], ["A"], 2, ""⟩
    let argv := ["left", "--b=1", "--b=2", "right"]
    (ctx.readCommandLine argv "" 80 handler ()).answer = .ok "" ∧
      ∃ es stop, Trace handler argv 0 0 ⟨ctx.tree, [], ()⟩ es stop (read handler () ctx.tree argv) ∧
        (calls es).map (fun p => (p.1.index, p.2)) = [(0, 2), (3, 2)] ∧ options es = [2] ∧ Divides argv es stop ∧
        ∀ i < argv.length, InSpan es i ∨ i ∈ options es := by
  intro ctx handler argv
  have hanswer : (ctx.readCommandLine argv "" 80 handler ()).answer = .ok "" := by decide +kernel
  obtain ⟨es, stop, htrace, hunique, hdivides, -, -, haccepted⟩ := readCommandLine_divides ctx argv 80 handler ()
  obtain ⟨-, hcovered, -⟩ := haccepted hanswer
  obtain ⟨rfl, -⟩ := hunique _ _ _ <| .next (.call rfl rfl rfl) <| .next (.option rfl rfl rfl) <|
    .next (.call rfl rfl rfl) <| .done (by decide)
  exact ⟨hanswer, _, stop, htrace, rfl, rfl, hdivides, hcovered⟩

end RunParams

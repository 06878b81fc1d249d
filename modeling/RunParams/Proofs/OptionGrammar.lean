import RunParams.CommandLine
import RunParams.Proofs.LineGrammar
import RunParams.Proofs.TreeMap

/-!
# The grammar of options

An option gives a name a value: two dashes and a key that spells the name, or one dash and a letter, and then an equals sign and
the value. The reader of options accepts exactly these, for names that are new and whose values the tree takes.
-/

namespace RunParams

namespace CommandLine

/-! ## The forms of options -/

/-- The form of an option, with the name and the value that it gives. -/
inductive OptionForm : String → String × String → Prop
  | long {key name value : String} (hkey : Spelling.Spells key name) : OptionForm ("--" ++ key ++ "=" ++ value) (name, value)
  | short {key name value : String} (hkey : Spelling.Spells key name) (hone : key.length = 1) :
      OptionForm ("-" ++ key ++ "=" ++ value) (name, value)

/-- A key starts with a letter, which is no dash. -/
theorem spells_cons {key name : String} (h : Spelling.Spells key name) :
    ∃ c s, key.toList = c :: s ∧ Text.isLetter c = true ∧ c ≠ '-' := by
  obtain ⟨c, s, n, hkey, hc, -⟩ := h
  exact ⟨c, s, hkey, Text.isLetter_of_isAlpha hc, (of_isAlphanum (isAlphanum_of_isAlpha hc)).1⟩

/-- All characters of a key stand in its token. -/
theorem spells_inKey {key name : String} (h : Spelling.Spells key name) : ∀ c ∈ key.toList, Token.inKey c = true := by
  intro c hc
  rcases h.mem c hc with halnum | rfl
  · exact Document.inKey_iff.mpr ⟨(of_isAlphanum halnum).2.2.2, (of_isAlphanum halnum).2.2.1⟩
  · decide

/-- An equals sign ends a key. -/
theorem stops_equals (s : List Char) : Stops Token.inKey ('=' :: s) := by
  intro c r hc
  obtain ⟨rfl, -⟩ := List.cons.inj hc
  decide

/-- What has the form of an option is one, and goes on with a key, an equals sign and the value. -/
theorem OptionForm.exists_body {argument name value : String} (h : OptionForm argument (name, value)) :
    isOption argument = true ∧ ∃ key, Spelling.Spells key name ∧ optionBody argument = key.toList ++ '=' :: value.toList := by
  cases h with
  | @long key _ _ hkey =>
    have hlist : ("--" ++ key ++ "=" ++ value).toList = '-' :: '-' :: (key.toList ++ '=' :: value.toList) := by simp
    refine ⟨?_, key, hkey, ?_⟩
    · rw [isOption, hlist]
      rfl
    · rw [optionBody, hlist]
      rfl
  | @short key _ _ hkey hone =>
    obtain ⟨c, s, hcs, hletter, hdash⟩ := spells_cons hkey
    have hnil : s = [] := by
      rw [← String.length_toList, hcs] at hone
      simpa using hone
    subst hnil
    have hlist : ("-" ++ key ++ "=" ++ value).toList = '-' :: c :: '=' :: value.toList := by simp [hcs]
    refine ⟨?_, key, hkey, ?_⟩
    · rw [isOption, hlist]
      simpa [hdash] using hletter
    · rw [optionBody, hlist]
      simp [hdash, hcs]

/-- An option that goes on with a key, an equals sign and a value has the form of one. -/
theorem optionForm_of_body {argument key name value : String} (ho : isOption argument = true)
    (hkey : Spelling.Spells key name) (hbody : optionBody argument = key.toList ++ '=' :: value.toList) :
    OptionForm argument (name, value) := by
  unfold isOption at ho
  split at ho
  · rename_i s hs
    have hargument : argument = "--" ++ key ++ "=" ++ value := by
      apply String.toList_injective
      rw [optionBody, hs] at hbody
      simp [hs, show s = _ from hbody]
    rw [hargument]
    exact .long hkey
  · rename_i c s hne hs
    obtain ⟨d, t, hdt, -, -⟩ := spells_cons hkey
    have hbody' : c :: '=' :: s = d :: (t ++ '=' :: value.toList) := by
      rw [optionBody, hs, hdt] at hbody
      split at hbody
      · rename_i r hr
        obtain ⟨rfl, -⟩ := List.cons.inj (List.cons.inj hr).2
        exact (hne rfl).elim
      · exact hbody
    obtain ⟨rfl, htail⟩ := List.cons.inj hbody'
    -- An equals sign stands in no key, so the one behind the first letter ends it.
    cases t with
    | nil =>
      obtain ⟨-, rfl⟩ := List.cons.inj htail
      have hargument : argument = "-" ++ key ++ "=" ++ value := by
        apply String.toList_injective
        simp [hs, hdt]
      rw [hargument]
      exact .short hkey (by rw [← String.length_toList, hdt]; rfl)
    | cons e t =>
      obtain ⟨rfl, -⟩ := List.cons.inj htail
      exact absurd (spells_inKey hkey '=' (by simp [hdt])) (by decide)
  · cases ho

/-- What an option starts with: a letter, and a key up to white space, an equals sign or the end. -/
structure KeyForm (argument key : String) (rest : List Char) : Prop where
  letter : (optionBody argument).head?.any Text.isLetter = true
  body : optionBody argument = key.toList ++ rest
  inKey : ∀ c ∈ key.toList, Token.inKey c = true
  stops : Stops Token.inKey rest

theorem keyForm_iff {argument key : String} {rest : List Char} :
    KeyForm argument key rest ↔
      (optionBody argument).head?.any Text.isLetter = true ∧ Token.key (optionBody argument) = (key.toList, rest) := by
  rw [Token.key, Prod.mk.injEq, span_iff]
  constructor
  · intro h
    exact ⟨h.letter, h.body, h.inKey, h.stops⟩
  · rintro ⟨hletter, hbody, hkey, hstops⟩
    exact ⟨hletter, hbody, hkey, hstops⟩

/-- An option with a value starts with a key that spells its name. -/
theorem OptionForm.exists_keyForm {argument name value : String} (h : OptionForm argument (name, value)) :
    ∃ key, Spelling.Spells key name ∧ KeyForm argument key ('=' :: value.toList) := by
  obtain ⟨-, key, hkey, hbody⟩ := h.exists_body
  obtain ⟨c, s, hcs, hletter, -⟩ := spells_cons hkey
  have hhead : (optionBody argument).head?.any Text.isLetter = true := by
    rw [hbody, hcs]
    simpa using hletter
  exact ⟨key, hkey, hhead, hbody, spells_inKey hkey, stops_equals _⟩

/-- An option gives one name one value. -/
theorem OptionForm.unique {argument : String} {a b : String × String} (ha : OptionForm argument a)
    (hb : OptionForm argument b) : a = b := by
  obtain ⟨name, value⟩ := a
  obtain ⟨name', value'⟩ := b
  obtain ⟨key, hkey, hform⟩ := ha.exists_keyForm
  obtain ⟨key', hkey', hform'⟩ := hb.exists_keyForm
  obtain ⟨hk, hrest⟩ := Prod.mk.inj ((keyForm_iff.mp hform).2.symm.trans (keyForm_iff.mp hform').2)
  obtain rfl := String.toList_injective hk
  obtain rfl : value = value' := String.toList_injective (List.cons.inj hrest).2
  have hname := (Spelling.canonicalize_eq_ok_iff.mpr hkey).symm.trans (Spelling.canonicalize_eq_ok_iff.mpr hkey')
  rw [Except.ok.inj hname]

/-! ## Reading one option -/

/-- The name of an option has no dots. -/
theorem OptionForm.dotFree {argument name value : String} (h : OptionForm argument (name, value)) : DotFree name := by
  obtain ⟨-, key, hkey, -⟩ := h.exists_body
  exact hkey.isCanonical.dotFree

/-- What reading an option does: it writes the value of one that has the form of an option and a new name, unless the name is that
of a sub-tree. Every other option is an error or is refused, and then the tree stays. -/
inductive OptionStep {σ : Type} (st : ArgumentState σ) (position : Nat) (argument : String) :
    ArgumentState σ × Verdict → Prop
  | noLetter (h : (optionBody argument).head?.any Text.isLetter = false) :
      OptionStep st position argument (st, .refused (.noLetter position argument))
  | badKey {key : String} {rest : List Char} {e : NameError} (h : KeyForm argument key rest)
      (hkey : Spelling.canonicalize true key = .error e) : OptionStep st position argument (st, .failed (.badKey e))
  | duplicate {key name : String} {rest : List Char} (h : KeyForm argument key rest) (hkey : Spelling.Spells key name)
      (hseen : name ∈ st.seen) : OptionStep st position argument (st, .failed (.duplicate name))
  | noValue {key name : String} {rest : List Char} (h : KeyForm argument key rest) (hkey : Spelling.Spells key name)
      (hnew : name ∉ st.seen) (hrest : ∀ value, rest ≠ '=' :: value) :
      OptionStep st position argument ({ st with seen := st.seen ++ [name] }, .refused (.noValue name argument))
  | blocked {name value : String} (h : OptionForm argument (name, value)) (hnew : name ∉ st.seen)
      (hsub : st.tree.hasSub name = true) :
      OptionStep st position argument ({ st with seen := st.seen ++ [name] }, .failed (.tree (.isSubTree name)))
  | assign {name value : String} (h : OptionForm argument (name, value)) (hnew : name ∉ st.seen)
      (ok : (st.tree.set name value).2 = none) :
      OptionStep st position argument (⟨(st.tree.set name value).1, st.seen ++ [name], st.handler⟩, .accepted)

section

variable {σ : Type} (st : ArgumentState σ) (position : Nat) {argument : String}

/-- Reading an option whose key spells no name. -/
theorem readOption_of_badKey {key : String} {rest : List Char} {e : NameError} (h : KeyForm argument key rest)
    (hkey : Spelling.canonicalize true key = .error e) : readOption st position argument = (st, .failed (.badKey e)) := by
  obtain ⟨hletter, htoken⟩ := keyForm_iff.mp h
  rw [readOption]
  simp only [hletter, htoken, String.ofList_toList, hkey, Bool.not_true, Bool.false_eq_true, if_false]

/-- Reading an option with a new name is writing its value. -/
theorem readOption_eq {name value : String} {t : Tree} {error : Option TreeError} (h : OptionForm argument (name, value))
    (hnew : name ∉ st.seen) (hset : st.tree.set name value = (t, error)) :
    readOption st position argument =
      (⟨t, st.seen ++ [name], st.handler⟩, error.elim .accepted fun e => .failed (.tree e)) := by
  obtain ⟨key, hkey, hform⟩ := h.exists_keyForm
  obtain ⟨hletter, htoken⟩ := keyForm_iff.mp hform
  have hname := Spelling.canonicalize_eq_ok_iff.mpr hkey
  rw [readOption]
  cases error <;>
    simp only [hletter, htoken, String.ofList_toList, hname, Bool.not_true, Bool.false_eq_true, if_false,
      List.contains_iff_mem, hnew, addSeen, hset, Option.elim_none, Option.elim_some]

theorem readOption_of_set {name value : String} (h : OptionForm argument (name, value)) (hnew : name ∉ st.seen)
    (ok : (st.tree.set name value).2 = none) :
    readOption st position argument = (⟨(st.tree.set name value).1, st.seen ++ [name], st.handler⟩, .accepted) := by
  have hset : st.tree.set name value = ((st.tree.set name value).1, none) := Prod.ext rfl ok
  exact readOption_eq st position h hnew hset

theorem readOption_of_blocked {name value : String} (h : OptionForm argument (name, value)) (hnew : name ∉ st.seen)
    (hsub : st.tree.hasSub name = true) :
    readOption st position argument =
      ({ st with seen := st.seen ++ [name] }, .failed (.tree (.isSubTree name))) := by
  have hfail : (st.tree.set name value).2 = some (.isSubTree name) := (Tree.set_eq_some_iff h.dotFree).mpr ⟨hsub, rfl⟩
  have hset : st.tree.set name value = (st.tree, some (.isSubTree name)) :=
    Prod.ext (Tree.set_eq_self (by simp [hfail])) hfail
  exact readOption_eq st position h hnew hset

/-- Reading an option whose key spells a name that was seen. -/
theorem readOption_of_duplicate {key name : String} {rest : List Char} (h : KeyForm argument key rest)
    (hkey : Spelling.Spells key name) (hseen : name ∈ st.seen) :
    readOption st position argument = (st, .failed (.duplicate name)) := by
  obtain ⟨hletter, htoken⟩ := keyForm_iff.mp h
  rw [readOption]
  simp [hletter, htoken, Spelling.canonicalize_eq_ok_iff.mpr hkey, hseen]

/-- Reading an option with a new name and no equals sign behind it. -/
theorem readOption_of_noValue {key name : String} {rest : List Char} (h : KeyForm argument key rest)
    (hkey : Spelling.Spells key name) (hnew : name ∉ st.seen) (hrest : ∀ value, rest ≠ '=' :: value) :
    readOption st position argument = ({ st with seen := st.seen ++ [name] }, .refused (.noValue name argument)) := by
  obtain ⟨hletter, htoken⟩ := keyForm_iff.mp h
  rw [readOption]
  simp only [hletter, htoken, String.ofList_toList, Spelling.canonicalize_eq_ok_iff.mpr hkey, Bool.not_true,
    Bool.false_eq_true, if_false, List.contains_iff_mem, hnew, addSeen]

theorem readOption_step (ho : isOption argument = true) :
    OptionStep st position argument (readOption st position argument) := by
  by_cases hletter : (optionBody argument).head?.any Text.isLetter = true
  · have hform : KeyForm argument (String.ofList (Token.key (optionBody argument)).1) (Token.key (optionBody argument)).2 :=
      keyForm_iff.mpr ⟨hletter, by simp⟩
    generalize String.ofList (Token.key (optionBody argument)).1 = key at hform
    generalize (Token.key (optionBody argument)).2 = rest at hform
    cases hname : Spelling.canonicalize true key with
    | error e =>
      rw [readOption_of_badKey st position hform hname]
      exact .badKey hform hname
    | ok name =>
      have hkey := Spelling.canonicalize_eq_ok_iff.mp hname
      by_cases hseen : name ∈ st.seen
      · rw [readOption_of_duplicate st position hform hkey hseen]
        exact .duplicate hform hkey hseen
      · by_cases hvalue : ∃ value, rest = '=' :: value
        · obtain ⟨value, rfl⟩ := hvalue
          have h : OptionForm argument (name, String.ofList value) :=
            optionForm_of_body ho hkey (by simpa using hform.body)
          cases hset : (st.tree.set name (String.ofList value)).2 with
          | none =>
            rw [readOption_of_set st position h hseen hset]
            exact .assign h hseen hset
          | some e =>
            have hsub := ((Tree.set_eq_some_iff h.dotFree).mp hset).1
            rw [readOption_of_blocked st position h hseen hsub]
            exact .blocked h hseen hsub
        · rw [readOption_of_noValue st position hform hkey hseen (not_exists.mp hvalue)]
          exact .noValue hform hkey hseen (not_exists.mp hvalue)
  · have hread : readOption st position argument = (st, .refused (.noLetter position argument)) := by
      rw [readOption]
      simp [hletter]
    rw [hread]
    exact .noLetter (by simpa using hletter)

end

end CommandLine

end RunParams

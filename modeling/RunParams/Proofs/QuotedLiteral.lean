import RunParams.Proofs.Results
import RunParams.Token

/-!
# Quoted literals

The text between the quotes of a literal is a sequence of units: a character other than the quote and the backslash, or one of
five escapes. What is read is what the units stand for, and everything else is refused. A text starts with one literal at most,
and every value has literals: one for each way to write its characters.
-/

namespace RunParams.Quoted

/-- The characters that a backslash may be before, each with what the two stand for. -/
def escapes : List (Char × Char) :=
  [('n', '\n'), ('r', '\r'), ('t', '\t'), ('"', '"'), ('\\', '\\')]

/-- The text between the quotes of a literal, and its value. -/
inductive Body : List Char → List Char → Prop
  | nil : Body [] []
  | plain {c : Char} {b v : List Char} (hq : c ≠ '"') (hs : c ≠ '\\') (h : Body b v) : Body (c :: b) (c :: v)
  | escape {c d : Char} {b v : List Char} (hc : (c, d) ∈ escapes) (h : Body b v) : Body ('\\' :: c :: b) (d :: v)

/-- A character is decoded exactly when it is that of an escape. -/
theorem unescape?_eq_some_iff {c d : Char} : unescape? c = some d ↔ (c, d) ∈ escapes := by
  unfold unescape? escapes
  constructor
  · intro h
    split at h <;> cases h <;> simp
  · intro h
    simp only [List.mem_cons, Prod.mk.injEq, List.not_mem_nil, or_false] at h
    rcases h with ⟨rfl, rfl⟩ | ⟨rfl, rfl⟩ | ⟨rfl, rfl⟩ | ⟨rfl, rfl⟩ | ⟨rfl, rfl⟩ <;> rfl

theorem decodeBody_plain {c : Char} (hq : c ≠ '"') (hs : c ≠ '\\') (s : List Char) :
    decodeBody (c :: s) = (decodeBody s).map fun p => (c :: p.1, p.2) := by
  rw [decodeBody.eq_def]
  split <;> simp_all

theorem decodeBody_escape {c d : Char} (hc : (c, d) ∈ escapes) (s : List Char) :
    decodeBody ('\\' :: c :: s) = (decodeBody s).map fun p => (d :: p.1, p.2) := by
  rw [decodeBody, unescape?_eq_some_iff.mpr hc]

/-- A body in front of a text is read with its value in front of that of the text. -/
theorem Body.decodeBody_append {b v : List Char} (h : Body b v) (s : List Char) :
    Quoted.decodeBody (b ++ s) = (Quoted.decodeBody s).map fun p => (v ++ p.1, p.2) := by
  induction h with
  | nil =>
    rw [List.nil_append]
    cases Quoted.decodeBody s <;> rfl
  | plain hq hs _ ih =>
    rw [List.cons_append, decodeBody_plain hq hs, ih]
    cases Quoted.decodeBody s <;> rfl
  | escape hc _ ih =>
    rw [List.cons_append, List.cons_append, decodeBody_escape hc, ih]
    cases Quoted.decodeBody s <;> rfl

/-- A body with its closing quote is read with its value. -/
theorem Body.decodeBody {b v : List Char} (h : Body b v) (rest : List Char) :
    Quoted.decodeBody (b ++ '"' :: rest) = .ok (v, rest) := by
  rw [h.decodeBody_append, Quoted.decodeBody]
  simp [Except.map]

/-- What is read after an opening quote is a body with its closing quote. -/
theorem body_of_decodeBody {s v rest : List Char} (h : Quoted.decodeBody s = .ok (v, rest)) :
    ∃ b, Body b v ∧ s = b ++ '"' :: rest := by
  fun_induction Quoted.decodeBody s generalizing v with
  | case1 => cases h
  | case2 r =>
    cases h
    exact ⟨[], .nil, rfl⟩
  | case3 => cases h
  | case4 c s hc => cases h
  | case5 c s d hd ih =>
    obtain ⟨p, hp, e⟩ := map_eq_ok.mp h
    cases e
    obtain ⟨b, hb, rfl⟩ := ih hp
    exact ⟨'\\' :: c :: b, .escape (unescape?_eq_some_iff.mp hd) hb, rfl⟩
  | case6 c s hq _ hpair ih =>
    obtain ⟨p, hp, e⟩ := map_eq_ok.mp h
    cases e
    obtain ⟨b, hb, rfl⟩ := ih hp
    refine ⟨c :: b, .plain (fun e => hq e) ?_ hb, rfl⟩
    -- A backslash has a character after it here, be it only the closing quote, so that it was read as an escape.
    rintro rfl
    obtain ⟨d, t, e⟩ := List.exists_cons_of_ne_nil (List.append_ne_nil_of_right_ne_nil b (List.cons_ne_nil '"' p.2))
    exact hpair d t rfl e

/-- A text after an opening quote is read with a value and a rest exactly when it is a body of that value, a quote, and the
rest. -/
theorem decodeBody_eq_ok_iff {s v rest : List Char} :
    Quoted.decodeBody s = .ok (v, rest) ↔ ∃ b, Body b v ∧ s = b ++ '"' :: rest := by
  constructor
  · exact body_of_decodeBody
  · rintro ⟨b, hb, rfl⟩
    exact hb.decodeBody rest

/-! ## Units -/

/-- A unit of a body, with the character that it stands for. -/
inductive StandsFor : List Char → Char → Prop
  | plain {c : Char} (hq : c ≠ '"') (hs : c ≠ '\\') : StandsFor [c] c
  | escape {c d : Char} (hc : (c, d) ∈ escapes) : StandsFor ['\\', c] d

theorem StandsFor.cons {u b v : List Char} {c : Char} (hu : StandsFor u c) (hb : Body b v) : Body (u ++ b) (c :: v) := by
  cases hu with
  | plain hq hs => exact .plain hq hs hb
  | escape hc => exact .escape hc hb

/-- A body is made of units, which stand for the characters of its value. -/
theorem body_iff_units {b v : List Char} : Body b v ↔ ∃ us, List.Forall₂ StandsFor us v ∧ b = us.flatten := by
  constructor
  · intro h
    induction h with
    | nil => exact ⟨[], .nil, rfl⟩
    | @plain c b v hq hs _ ih =>
      obtain ⟨us, hus, rfl⟩ := ih
      exact ⟨[c] :: us, .cons (.plain hq hs) hus, rfl⟩
    | @escape c d b v hc _ ih =>
      obtain ⟨us, hus, rfl⟩ := ih
      exact ⟨['\\', c] :: us, .cons (.escape hc) hus, rfl⟩
  · rintro ⟨us, hus, rfl⟩
    induction hus with
    | nil => exact .nil
    | cons hu _ ih => exact hu.cons ih

/-- A character is written inside quotes as its escape, or as it is, unless it is the quote or the backslash. -/
def IsWriting (c : Char) (u : List Char) : Prop :=
  u = escape c ∨ u = [c] ∧ c ≠ '"' ∧ c ≠ '\\'

/-- The units that stand for a character are the ways to write it. -/
theorem isWriting_iff {c : Char} {u : List Char} : IsWriting c u ↔ StandsFor u c := by
  constructor
  · rintro (rfl | ⟨rfl, hq, hs⟩)
    · unfold escape
      split_ifs with hn hr ht hc
      · subst hn
        exact .escape (by decide)
      · subst hr
        exact .escape (by decide)
      · subst ht
        exact .escape (by decide)
      · rcases hc with rfl | rfl <;> exact .escape (by decide)
      · obtain ⟨hq, hs⟩ := not_or.mp hc
        exact .plain hq hs
    · exact .plain hq hs
  · intro h
    cases h with
    | plain hq hs => exact .inr ⟨rfl, hq, hs⟩
    | escape hc =>
      left
      simp only [escapes, List.mem_cons, Prod.mk.injEq, List.not_mem_nil, or_false] at hc
      rcases hc with ⟨rfl, rfl⟩ | ⟨rfl, rfl⟩ | ⟨rfl, rfl⟩ | ⟨rfl, rfl⟩ | ⟨rfl, rfl⟩ <;> rfl

/-- However the characters of a value are written, they make a body of that value. -/
theorem body_of_writings {v : List Char} {us : List (List Char)} (h : List.Forall₂ IsWriting v us) : Body us.flatten v := by
  refine body_iff_units.mpr ⟨us, ?_, rfl⟩
  exact h.flip.imp fun _ _ hu => isWriting_iff.mp hu

/-- The quoted form of a value is read back as that value, whatever is behind it. -/
theorem decode_encode (v rest : List Char) : decode (encode v ++ rest) = .ok (v, rest) := by
  have hescapes : List.Forall₂ IsWriting v (v.map escape) :=
    List.forall₂_map_right_iff.mpr (List.forall₂_same.mpr fun c _ => .inl rfl)
  have hbody := (body_of_writings hescapes).decodeBody rest
  rw [encode, List.flatMap_def, List.append_assoc, List.singleton_append]
  exact hbody

/-- No unit starts with a quote. -/
theorem StandsFor.append_ne_quote {u s t : List Char} {c : Char} (h : StandsFor u c) : u ++ s ≠ '"' :: t := by
  intro e
  cases h with
  | plain hq hs => exact hq (List.cons.inj e).1
  | escape hc => exact absurd (List.cons.inj e).1 (by decide)

/-- No unit is the start of another one. -/
theorem StandsFor.append_inj {u u' s s' : List Char} {c c' : Char} (h : StandsFor u c) (h' : StandsFor u' c')
    (e : u ++ s = u' ++ s') : u = u' ∧ c = c' ∧ s = s' := by
  cases h with
  | plain hq hs =>
    cases h' with
    | plain hq' hs' =>
      obtain ⟨rfl, rfl⟩ := List.cons.inj e
      exact ⟨rfl, rfl, rfl⟩
    | escape hc' => exact absurd (List.cons.inj e).1 hs
  | escape hc =>
    cases h' with
    | plain hq' hs' => exact absurd (List.cons.inj e).1.symm hs'
    | escape hc' =>
      obtain ⟨rfl, rfl⟩ := List.cons.inj (List.cons.inj e).2
      have hd := (unescape?_eq_some_iff.mpr hc).symm.trans (unescape?_eq_some_iff.mpr hc')
      exact ⟨rfl, Option.some.inj hd, rfl⟩

/-- The units in front of a closing quote can be told. -/
theorem units_unique {us us' : List (List Char)} {v v' rest rest' : List Char} (h : List.Forall₂ StandsFor us v)
    (h' : List.Forall₂ StandsFor us' v') (e : us.flatten ++ '"' :: rest = us'.flatten ++ '"' :: rest') :
    us = us' ∧ v = v' ∧ rest = rest' := by
  -- Where one reading has its closing quote, the other cannot go on with a unit.
  induction h generalizing us' v' with
  | nil =>
    cases h' with
    | nil => exact ⟨rfl, rfl, (List.cons.inj e).2⟩
    | cons hu _ =>
      rw [List.flatten_cons, List.append_assoc] at e
      exact absurd e.symm hu.append_ne_quote
  | cons hu _ ih =>
    rw [List.flatten_cons, List.append_assoc] at e
    cases h' with
    | nil => exact absurd e hu.append_ne_quote
    | cons hu' hus' =>
      rw [List.flatten_cons, List.append_assoc] at e
      obtain ⟨rfl, rfl, e⟩ := hu.append_inj hu' e
      obtain ⟨rfl, rfl, rfl⟩ := ih hus' e
      exact ⟨rfl, rfl, rfl⟩

/-! ## Literals -/

/-- A text is a literal and a rest: an opening quote, units that stand for the characters of a value, a closing quote, and the
rest. -/
structure IsLiteral (s : List Char) (units : List (List Char)) (value rest : List Char) : Prop where
  stands : List.Forall₂ StandsFor units value
  text : s = '"' :: units.flatten ++ '"' :: rest

/-- A quoted value is read exactly off a literal of that value. -/
theorem decode_eq_ok_iff {s v rest : List Char} : decode s = .ok (v, rest) ↔ ∃ units, IsLiteral s units v rest := by
  constructor
  · intro h
    unfold decode at h
    split at h
    · obtain ⟨b, hb, rfl⟩ := decodeBody_eq_ok_iff.mp h
      obtain ⟨us, hus, rfl⟩ := body_iff_units.mp hb
      exact ⟨us, hus, rfl⟩
    · cases h
  · rintro ⟨us, hus, rfl⟩
    exact (body_iff_units.mpr ⟨us, hus, rfl⟩).decodeBody rest

/-- What is wrong with a text that starts with no literal: it starts with no quote; or behind the quote and perhaps some units it
ends, ends with a backslash, or has a backslash before a character that makes no escape. -/
inductive Fault : List Char → QuoteError → Prop
  | notQuoted {s : List Char} (h : ∀ t, s ≠ '"' :: t) : Fault s .notQuoted
  | unclosed {b v : List Char} (h : Body b v) : Fault ('"' :: b) .unclosed
  | endsAfterBackslash {b v : List Char} (h : Body b v) : Fault ('"' :: (b ++ ['\\'])) .endsAfterBackslash
  | unknownEscape {b v t : List Char} {c : Char} (h : Body b v) (hc : ∀ d, (c, d) ∉ escapes) :
      Fault ('"' :: (b ++ '\\' :: c :: t)) (.unknownEscape c)

theorem Fault.cons {u s : List Char} {c : Char} {e : QuoteError} (h : Fault ('"' :: s) e) (hu : StandsFor u c) :
    Fault ('"' :: (u ++ s)) e := by
  cases h with
  | notQuoted h => exact absurd rfl (h s)
  | unclosed h => exact .unclosed (hu.cons h)
  | endsAfterBackslash h =>
    rw [← List.append_assoc]
    exact .endsAfterBackslash (hu.cons h)
  | unknownEscape h hc =>
    rw [← List.append_assoc]
    exact .unknownEscape (hu.cons h) hc

theorem fault_of_decodeBody {s : List Char} {e : QuoteError} (h : decodeBody s = .error e) : Fault ('"' :: s) e := by
  fun_induction decodeBody s with
  | case1 =>
    cases h
    exact .unclosed .nil
  | case2 r => cases h
  | case3 =>
    cases h
    exact .endsAfterBackslash .nil
  | case4 c s hc =>
    cases h
    refine .unknownEscape .nil fun d hd => ?_
    rw [unescape?_eq_some_iff.mpr hd] at hc
    cases hc
  | case5 c s d hd ih => exact (ih (map_eq_error.mp h)).cons (.escape (unescape?_eq_some_iff.mp hd))
  | case6 c s hq hlone hpair ih =>
    refine (ih (map_eq_error.mp h)).cons (.plain (fun e => hq e) ?_)
    -- A backslash at the end, and one before a character, were met before.
    rintro rfl
    cases s with
    | nil => exact hlone rfl rfl
    | cons d t => exact hpair d t rfl rfl

/-- A text is refused exactly with what is wrong with it. -/
theorem decode_eq_error_iff {s : List Char} {e : QuoteError} : decode s = .error e ↔ Fault s e := by
  constructor
  · intro h
    unfold decode at h
    split at h
    · exact fault_of_decodeBody h
    · rename_i hs
      cases h
      exact .notQuoted fun t ht => hs t ht
  · intro h
    cases h with
    | notQuoted hs =>
      unfold decode
      split
      · exact absurd rfl (hs _)
      · rfl
    | @unclosed b v h =>
      have := h.decodeBody_append []
      rw [List.append_nil] at this
      exact this
    | endsAfterBackslash h => exact h.decodeBody_append ['\\']
    | @unknownEscape b v t c h hc =>
      have hnone : unescape? c = none := by
        rw [Option.eq_none_iff_forall_not_mem]
        exact fun d hd => hc d (unescape?_eq_some_iff.mp hd)
      rw [decode, h.decodeBody_append, decodeBody, hnone]
      rfl

/-- A demanded literal is split off a text exactly when the text starts with one, which then is the only one; every other text is
refused, with what is wrong with it. A value with its quotes and backslashes escaped, and its other characters written in any
way, makes a literal that is read back with whatever is behind it. -/
theorem value_quoted_spec :
    (∀ s v rest, Token.value true s = .ok (v, rest) ↔ ∃ units, IsLiteral s units v rest) ∧
      (∀ s units units' v v' rest rest', IsLiteral s units v rest → IsLiteral s units' v' rest' →
        units = units' ∧ v = v' ∧ rest = rest') ∧
      (∀ s, (∃ e, Token.value true s = .error e) ↔ ¬∃ units v rest, IsLiteral s units v rest) ∧
      (∀ s e, Token.value true s = .error e ↔ Fault s e) ∧
      ∀ v writings rest, List.Forall₂ IsWriting v writings →
        Token.value true ('"' :: writings.flatten ++ '"' :: rest) = .ok (v, rest) := by
  refine ⟨fun s v rest => decode_eq_ok_iff, ?_, ?_, fun s e => decode_eq_error_iff, ?_⟩
  · intro s units units' v v' rest rest' h h'
    exact units_unique h.stands h'.stands (List.cons.inj (h.text.symm.trans h'.text)).2
  · intro s
    constructor
    · rintro ⟨e, he⟩ ⟨units, v, rest, h⟩
      rw [show Token.value true s = .ok (v, rest) from decode_eq_ok_iff.mpr ⟨units, h⟩] at he
      cases he
    · intro h
      cases hs : Token.value true s with
      | error e => exact ⟨e, rfl⟩
      | ok p =>
        obtain ⟨units, hlit⟩ := decode_eq_ok_iff.mp (hs : decode s = .ok (p.1, p.2))
        exact absurd ⟨units, p.1, p.2, hlit⟩ h
  · intro v writings rest h
    exact (body_of_writings h).decodeBody rest

/-- A quote and a backslash that are escaped, between a line feed that is not and one that is. -/
theorem value_quoted_spec_of_four_characters :
    let v := ['\n', '"', '\\', '\n']
    let writings := [['\n'], ['\\', '"'], ['\\', '\\'], ['\\', 'n']]
    let rest := " \" # rest".toList
    List.Forall₂ IsWriting v writings ∧ IsLiteral ('"' :: writings.flatten ++ '"' :: rest) writings v rest ∧
      (∀ units v' rest', IsLiteral ('"' :: writings.flatten ++ '"' :: rest) units v' rest' → units = writings) ∧
      Token.value true ('"' :: writings.flatten ++ '"' :: rest) = .ok (v, rest) := by
  intro v writings rest
  have hwritings : List.Forall₂ IsWriting v writings :=
    .cons (.inr ⟨rfl, by decide, by decide⟩) (.cons (.inl rfl) (.cons (.inl rfl) (.cons (.inl rfl) .nil)))
  have hliteral : IsLiteral ('"' :: writings.flatten ++ '"' :: rest) writings v rest :=
    ⟨hwritings.flip.imp fun _ _ hu => isWriting_iff.mp hu, rfl⟩
  obtain ⟨-, hunique, -, -, hread⟩ := value_quoted_spec
  refine ⟨hwritings, hliteral, ?_, hread v writings rest hwritings⟩
  intro units v' rest' h
  exact (hunique _ _ _ _ _ _ _ h hliteral).1

end RunParams.Quoted

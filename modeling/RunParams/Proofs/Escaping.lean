import RunParams.Console.Markup
import RunParams.Proofs.LineGrammar

/-!
# Escaped text in markup

Text from elsewhere is escaped before it becomes part of a message with markup: every tag in it gets backslashes that make it plain.
Read as part of a message, the escaped text has the parts of the text itself with their tags made plain, whatever stands around it.
-/

namespace RunParams.Console

/-! ## Tags -/

/-- What may stand between the brackets of a tag. -/
def IsTag (inside : List Char) : Prop :=
  ∃ c name, inside = c :: name ∧ startsTag c = true ∧ ∀ d ∈ name, d ≠ ']' ∧ d ≠ '['

/-- A tag is split off a text that starts with it. -/
theorem splitTag_eq_some_iff {s inside rest : List Char} :
    splitTag s = some (inside, rest) ↔ IsTag inside ∧ s = '[' :: inside ++ ']' :: rest := by
  constructor
  · intro h
    unfold splitTag at h
    split at h
    · rename_i c s
      dsimp only at h
      obtain ⟨hs, hname, -⟩ := span_iff.mp (⟨rfl, rfl⟩ : s.takeWhile (fun d => d != ']' && d != '[') = _ ∧ _)
      generalize s.takeWhile (fun d => d != ']' && d != '[') = name at h hs hname
      rw [hs, List.drop_left] at h
      split at h
      · rename_i hc
        split at h
        · rename_i rest' htail
          obtain ⟨rfl, rfl⟩ := Prod.mk.inj (Option.some.inj h)
          refine ⟨⟨c, name, rfl, hc, fun d hd => by simpa using hname d hd⟩, ?_⟩
          rw [hs, htail]
          rfl
        · cases h
      · cases h
    · cases h
  · rintro ⟨⟨c, name, rfl, hc, hname⟩, rfl⟩
    have hspan := (span_iff.mpr ⟨rfl, fun d hd => by simpa using hname d hd, fun d r hd => by
      obtain ⟨rfl, -⟩ := List.cons.inj hd
      rfl⟩ : (name ++ ']' :: rest).takeWhile (fun d => d != ']' && d != '[') = name ∧
        (name ++ ']' :: rest).dropWhile (fun d => d != ']' && d != '[') = ']' :: rest)
    simp only [splitTag, List.cons_append, hc, if_true, hspan.1, List.drop_left]

theorem IsTag.not_bracket {inside : List Char} (h : IsTag inside) : ∀ d ∈ inside, d ≠ ']' ∧ d ≠ '[' := by
  obtain ⟨c, name, rfl, hc, hname⟩ := h
  refine List.forall_mem_cons.mpr ⟨⟨?_, ?_⟩, hname⟩
  · rintro rfl
    revert hc
    decide
  · rintro rfl
    revert hc
    decide

/-- What a text may go on with for its tags to stay as they are: no bracket that closes without one that opens before it. -/
def Separate (t : List Char) : Prop :=
  ∀ a r, t = a ++ ']' :: r → '[' ∈ a

theorem splitTag_append_of_none {c : Char} {s t : List Char} (h : splitTag (c :: s) = none) (ht : Separate t) :
    splitTag (c :: s ++ t) = none := by
  rw [Option.eq_none_iff_forall_not_mem]
  rintro ⟨inside, rest⟩ hsome
  obtain ⟨htag, heq⟩ := splitTag_eq_some_iff.mp hsome
  -- The closing bracket is in the first text, or behind it.
  rcases List.append_eq_append_iff.mp heq with ⟨x, hx, hrest⟩ | ⟨x, hx, hrest⟩
  · have hopen := ht x rest hrest
    obtain ⟨rfl, hinside⟩ := List.cons.inj hx
    exact (htag.not_bracket '[' (hinside ▸ List.mem_append_right _ hopen)).2 rfl
  · cases x with
    | nil =>
      have hopen := ht [] rest hrest.symm
      cases hopen
    | cons d x =>
      obtain ⟨rfl, rfl⟩ := List.cons.inj hrest
      rw [splitTag_eq_some_iff.mpr ⟨htag, hx⟩] at h
      cases h

theorem separate_nil : Separate [] := by
  intro a r h
  simp at h

theorem Separate.cons {c : Char} {t : List Char} (h : Separate t) (hc : c ≠ ']') : Separate (c :: t) := by
  intro a r ha
  cases a with
  | nil => exact absurd (List.cons.inj ha).1 hc
  | cons d a => exact List.mem_cons_of_mem _ (h a r (List.cons.inj ha).2)

theorem separate_open (t : List Char) : Separate ('[' :: t) := by
  intro a r ha
  cases a with
  | nil => cases ha
  | cons d a => exact List.mem_cons.mpr (.inl (List.cons.inj ha).1)

theorem separate_append_open {a : List Char} (h : ']' ∉ a) (t : List Char) : Separate (a ++ '[' :: t) := by
  induction a with
  | nil => exact separate_open t
  | cons c a ih =>
    obtain ⟨hc, ha⟩ := not_or.mp (List.mem_cons.not.mp h)
    exact (ih ha).cons (Ne.symm hc)

/-! ## Parts -/

/-- Puts parts behind others, as one part where plain text meets plain text. -/
def join : List Part → List Part → List Part
  | [], qs => qs
  | [.plain x], .plain y :: qs => .plain (x ++ y) :: qs
  | p :: ps, qs => p :: join ps qs

theorem join_tag (b : Nat) (inside : List Char) (ps qs : List Part) :
    join (.tag b inside :: ps) qs = .tag b inside :: join ps qs := by
  cases ps <;> rfl

theorem join_cons_of_ne_nil (p : Part) {ps : List Part} (h : ps ≠ []) (qs : List Part) :
    join (p :: ps) qs = p :: join ps qs := by
  cases ps with
  | nil => exact absurd rfl h
  | cons q ps => cases p <;> rfl

theorem join_ne_nil {ps : List Part} (h : ps ≠ []) (qs : List Part) : join ps qs ≠ [] := by
  unfold join
  split
  · exact absurd rfl h
  · simp
  · simp

@[simp] theorem join_nil (ps : List Part) : join ps [] = ps := by
  induction ps with
  | nil => rfl
  | cons p ps ih =>
    cases ps with
    | nil => cases p <;> rfl
    | cons q ps => rw [join_cons_of_ne_nil p (by simp), ih]

theorem consPlain_tag (c : Char) (b : Nat) (inside : List Char) (ps : List Part) :
    consPlain c (.tag b inside :: ps) = .plain [c] :: .tag b inside :: ps :=
  rfl

theorem consPlain_join (c : Char) (ps qs : List Part) : consPlain c (join ps qs) = join (consPlain c ps) qs := by
  cases ps with
  | nil =>
    cases qs with
    | nil => rfl
    | cons q qs => cases q <;> rfl
  | cons p ps =>
    cases p with
    | tag b inside => rw [join_tag, consPlain_tag, consPlain_tag, join_cons_of_ne_nil _ (by simp), join_tag]
    | plain x =>
      cases ps with
      | nil =>
        cases qs with
        | nil => rfl
        | cons q qs => cases q <;> rfl
      | cons p ps =>
        have hne : p :: ps ≠ [] := by simp
        rw [join_cons_of_ne_nil (.plain x) hne]
        exact (join_cons_of_ne_nil (.plain (c :: x)) hne qs).symm

/-- Characters before parts are a part of plain text before them. -/
theorem foldr_consPlain (cs : List Char) (ps : List Part) :
    cs.foldr (fun c qs => consPlain c qs) ps = join (cs.foldr (fun c qs => consPlain c qs) []) ps := by
  induction cs with
  | nil => rfl
  | cons c cs ih => rw [List.foldr_cons, List.foldr_cons, ih, consPlain_join]

theorem foldr_consPlain_nil {cs : List Char} (h : cs ≠ []) :
    cs.foldr (fun c qs => consPlain c qs) [] = [.plain cs] := by
  induction cs with
  | nil => exact absurd rfl h
  | cons c cs ih =>
    cases cs with
    | nil => rfl
    | cons d cs =>
      rw [List.foldr_cons, ih (by simp)]
      rfl

theorem join_assoc (ps qs rs : List Part) : join (join ps qs) rs = join ps (join qs rs) := by
  induction ps with
  | nil => rfl
  | cons p ps ih =>
    cases p with
    | tag b inside => rw [join_tag, join_tag, join_tag, ih]
    | plain x =>
      cases ps with
      | cons p ps =>
        have hne : p :: ps ≠ [] := by simp
        rw [join_cons_of_ne_nil _ hne, join_cons_of_ne_nil _ hne, join_cons_of_ne_nil _ (join_ne_nil hne qs), ih]
      | nil =>
        cases qs with
        | nil => rfl
        | cons q qs =>
          cases q with
          | tag b inside =>
            have hne : Part.tag b inside :: qs ≠ [] := by simp
            change join (.plain x :: .tag b inside :: qs) rs = _
            rw [join_cons_of_ne_nil _ hne, join_tag]
            rfl
          | plain y =>
            cases qs with
            | cons q qs =>
              rw [join_cons_of_ne_nil (.plain y) (by simp)]
              exact join_cons_of_ne_nil _ (by simp) _
            | nil =>
              cases rs with
              | nil => rfl
              | cons r rs =>
                cases r with
                | tag b inside => rfl
                | plain z =>
                  change [Part.plain (x ++ y ++ z)] ++ rs = [Part.plain (x ++ (y ++ z))] ++ rs
                  rw [List.append_assoc]

/-! ## The parts of a text -/

/-- Backslashes with nothing behind them. -/
theorem parts_backslashes_nil (b : Nat) :
    parts 0 b [] = (List.replicate b '\\').foldr (fun c qs => consPlain c qs) [] := by
  cases b with
  | zero => rfl
  | succ b =>
    rw [foldr_consPlain_nil (by simp)]
    rfl

theorem parts_backslash (b : Nat) (s : List Char) : parts 0 b ('\\' :: s) = parts 0 (b + 1) s :=
  rfl

theorem parts_replicate (b k : Nat) (s : List Char) : parts 0 b (List.replicate k '\\' ++ s) = parts 0 (b + k) s := by
  induction k generalizing b with
  | zero => rfl
  | succ k ih =>
    rw [List.replicate_succ, List.cons_append, parts_backslash, ih]
    congr 1
    omega

/-- The parts behind a tag that has been read. -/
theorem parts_skip (n : Nat) (s : List Char) : parts n 0 s = parts 0 0 (s.drop n) := by
  induction s generalizing n with
  | nil => simp [parts]
  | cons c s ih =>
    cases n with
    | zero => rfl
    | succ n => exact ih n

theorem parts_tag {inside : List Char} (h : IsTag inside) (b : Nat) (rest : List Char) :
    parts 0 b ('[' :: inside ++ ']' :: rest) = .tag b inside :: parts 0 0 rest := by
  have hsplit : splitTag ('[' :: (inside ++ ']' :: rest)) = some (inside, rest) := splitTag_eq_some_iff.mpr ⟨h, rfl⟩
  have hdrop : (inside ++ ']' :: rest).drop (inside.length + 1) = rest := by
    rw [List.drop_append, List.drop_of_length_le (by omega)]
    simp
  rw [List.cons_append, parts]
  simp only [hsplit]
  rw [if_neg (by decide), parts_skip, hdrop]

theorem parts_plain {c : Char} {s : List Char} (hc : c ≠ '\\') (h : splitTag (c :: s) = none) (b : Nat) :
    parts 0 b (c :: s) = join [.plain (List.replicate b '\\' ++ [c])] (parts 0 0 s) := by
  rw [parts]
  simp only [hc, if_false, h]
  rw [foldr_consPlain, foldr_consPlain_nil (by simp)]

/-- Characters that begin nothing are plain. -/
theorem parts_of_plain {cs : List Char} (h : cs.all (fun c => c != '\\' && c != '[') = true) (t : List Char) :
    parts 0 0 (cs ++ t) = cs.foldr (fun c qs => consPlain c qs) (parts 0 0 t) := by
  induction cs with
  | nil => rfl
  | cons c cs ih =>
    simp only [List.all_cons, Bool.and_eq_true, bne_iff_ne] at h
    obtain ⟨⟨hslash, hbracket⟩, hcs⟩ := h
    have hnone : splitTag (c :: (cs ++ t)) = none := by
      rw [splitTag]
      exact fun _ _ heq => absurd (List.cons.inj heq).1 hbracket
    rw [List.cons_append, parts_plain hslash hnone, ih (by simpa using hcs)]
    exact (consPlain_join c [] _).symm

/-! ## The text of parts -/

/-- The text that a part is read from. -/
def Part.text : Part → List Char
  | .plain s => s
  | .tag backslashes inside => List.replicate backslashes '\\' ++ '[' :: inside ++ [']']

/-- A part with as many backslashes in front of a tag as make it plain. -/
def Part.escaped : Part → Part
  | .plain s => .plain s
  | .tag backslashes inside => .tag (2 * backslashes + 1) inside

/-- The text of parts with their tags made plain. -/
def escapedText (ps : List Part) : List Char :=
  (ps.map Part.escaped).flatMap Part.text

theorem flatMap_text_join (ps qs : List Part) :
    (join ps qs).flatMap Part.text = ps.flatMap Part.text ++ qs.flatMap Part.text := by
  fun_induction join ps qs with
  | case1 qs => rfl
  | case2 x y qs => simp [Part.text]
  | case3 p ps qs _ ih => rw [List.flatMap_cons, List.flatMap_cons, ih, List.append_assoc]

theorem map_escaped_join (ps qs : List Part) :
    (join ps qs).map Part.escaped = join (ps.map Part.escaped) (qs.map Part.escaped) := by
  induction ps with
  | nil => rfl
  | cons p ps ih =>
    cases ps with
    | cons q ps =>
      have hne : q :: ps ≠ [] := by simp
      rw [join_cons_of_ne_nil p hne, List.map_cons, ih]
      exact (join_cons_of_ne_nil p.escaped (by simp) _).symm
    | nil =>
      cases p with
      | tag b inside => rfl
      | plain x =>
        cases qs with
        | nil => rfl
        | cons q qs => cases q <;> rfl

theorem escapedText_join (ps qs : List Part) : escapedText (join ps qs) = escapedText ps ++ escapedText qs := by
  rw [escapedText, map_escaped_join, flatMap_text_join]
  rfl

/-- A text with backslashes before it is read into parts: a tag is a part of its own with the backslashes before it, and everything
between tags is one part. -/
inductive HasParts : Nat → List Char → List Part → Prop
  | nil (b : Nat) : HasParts b [] (parts 0 b [])
  | backslash {b : Nat} {s : List Char} {ps : List Part} (h : HasParts (b + 1) s ps) : HasParts b ('\\' :: s) ps
  | tag {inside rest : List Char} {ps : List Part} (b : Nat) (htag : IsTag inside) (h : HasParts 0 rest ps) :
      HasParts b ('[' :: inside ++ ']' :: rest) (.tag b inside :: ps)
  | plain {c : Char} {s : List Char} {ps : List Part} (b : Nat) (hc : c ≠ '\\') (hnone : splitTag (c :: s) = none)
      (h : HasParts 0 s ps) : HasParts b (c :: s) (join [.plain (List.replicate b '\\' ++ [c])] ps)

theorem hasParts_parts (b : Nat) (s : List Char) : HasParts b s (parts 0 b s) := by
  induction hn : s.length using Nat.strongRecOn generalizing b s with
  | ind n ih =>
    subst hn
    cases s with
    | nil => exact .nil b
    | cons c s =>
      by_cases hc : c = '\\'
      · subst hc
        exact .backslash (ih s.length (by simp) (b + 1) s rfl)
      · cases hsplit : splitTag (c :: s) with
        | none =>
          rw [parts_plain hc hsplit]
          exact .plain b hc hsplit (ih s.length (by simp) 0 s rfl)
        | some found =>
          obtain ⟨inside, rest⟩ := found
          obtain ⟨htag, heq⟩ := splitTag_eq_some_iff.mp hsplit
          rw [heq, parts_tag htag]
          refine .tag b htag (ih rest.length ?_ 0 rest rfl)
          rw [heq]
          simp
          omega

namespace HasParts

variable {b : Nat} {s : List Char} {ps : List Part}

/-- Nothing of a text is lost in its parts. -/
theorem flatMap_text (h : HasParts b s ps) : ps.flatMap Part.text = List.replicate b '\\' ++ s := by
  induction h with
  | nil b => cases b <;> simp [parts, Part.text]
  | @backslash b s ps _ ih => rw [ih, List.replicate_succ', List.append_assoc, List.singleton_append]
  | tag b _ _ ih => simp [Part.text, ih]
  | plain b _ _ _ ih =>
    rw [flatMap_text_join, ih]
    simp [Part.text]

/-- The first bracket of the escaped text closes only if that of the text does, as there is nothing new before it. -/
theorem closes_of_escaped (h : HasParts b s ps) {stem r : List Char} (hstem : ∀ d ∈ stem, d ≠ ']' ∧ d ≠ '[')
    (hr : escapedText ps = stem ++ ']' :: r) : ∃ r', List.replicate b '\\' ++ s = stem ++ ']' :: r' := by
  induction h generalizing stem with
  | nil b =>
    refine ⟨r, ?_⟩
    rw [← hr]
    cases b <;> simp [parts, escapedText, Part.escaped, Part.text]
  | @backslash b s ps _ ih =>
    obtain ⟨r', hr'⟩ := ih hstem hr
    refine ⟨r', ?_⟩
    rw [← hr', List.replicate_succ', List.append_assoc, List.singleton_append]
  | @tag inside rest ps b _ _ _ =>
    have htext : escapedText (.tag b inside :: ps) =
        List.replicate (2 * b + 1) '\\' ++ '[' :: (inside ++ ']' :: escapedText ps) := by
      simp [escapedText, Part.escaped, Part.text]
    have hslashes : ']' ∉ List.replicate (2 * b + 1) '\\' := by simp [List.mem_replicate]
    have hopen : '[' ∈ stem := separate_append_open hslashes _ _ _ (htext.symm.trans hr)
    exact absurd rfl (hstem '[' hopen).2
  | @plain c s ps b _ _ _ ih =>
    have htext : escapedText [.plain (List.replicate b '\\' ++ [c])] = List.replicate b '\\' ++ [c] := by
      simp [escapedText, Part.escaped, Part.text]
    rw [escapedText_join, htext] at hr
    -- The bracket stands behind the character, or is the character.
    rcases List.append_eq_append_iff.mp hr with ⟨x, rfl, hrest⟩ | ⟨x, hx, hrest⟩
    · obtain ⟨r', hr'⟩ := ih (fun d hd => hstem d (List.mem_append_right _ hd)) hrest
      refine ⟨r', ?_⟩
      rw [List.append_assoc, ← hr']
      simp
    · cases x with
      | nil =>
        have hfirst : escapedText ps = [] ++ ']' :: r := hrest.symm
        obtain ⟨r', hr'⟩ := ih (by simp) hfirst
        refine ⟨r', ?_⟩
        rw [List.append_nil] at hx
        rw [← hx, List.append_assoc, ← List.nil_append (']' :: r'), ← hr']
        simp
      | cons d x =>
        obtain ⟨rfl, -⟩ := List.cons.inj hrest
        refine ⟨x ++ s, ?_⟩
        have := congrArg (· ++ s) hx
        simpa using this

/-- What starts no tag before a text starts none before the escaped text. -/
theorem splitTag_escaped (h : HasParts 0 s ps) {c : Char} (hnone : splitTag (c :: s) = none) :
    splitTag (c :: escapedText ps) = none := by
  rw [Option.eq_none_iff_forall_not_mem]
  rintro ⟨inside, rest⟩ hsome
  obtain ⟨htag, heq⟩ := splitTag_eq_some_iff.mp hsome
  obtain ⟨rfl, htext⟩ := List.cons.inj heq
  obtain ⟨r, hr⟩ := h.closes_of_escaped htag.not_bracket htext
  rw [List.replicate_zero, List.nil_append] at hr
  rw [splitTag_eq_some_iff.mpr ⟨htag, congrArg (List.cons '[') hr⟩] at hnone
  cases hnone

end HasParts

/-! ## The parts of an escaped text -/

/-- A text that does not change what stands before it: backslashes before it become part of the plain text. -/
def Joins (t : List Char) : Prop :=
  ∀ b, parts 0 b t = join (parts 0 b []) (parts 0 0 t)

theorem joins_nil : Joins [] :=
  fun _ => (join_nil _).symm

theorem join_backslashes (b : Nat) (x : List Char) : join (parts 0 b []) [.plain x] = [.plain (List.replicate b '\\' ++ x)] := by
  cases b <;> rfl

theorem joins_cons {c : Char} {t : List Char} (hc : c ≠ '\\') (h : splitTag (c :: t) = none) : Joins (c :: t) := by
  intro _
  rw [parts_plain hc h, parts_plain hc h, ← join_assoc, join_backslashes]
  rfl

theorem joins_backslash {t : List Char} (h : Joins t) : Joins ('\\' :: t) := by
  intro _
  have hone : parts 0 1 [] = [.plain ['\\']] := rfl
  rw [parts_backslash, parts_backslash, h, h (0 + 1), ← join_assoc, Nat.zero_add, hone, join_backslashes,
    parts_backslashes_nil, foldr_consPlain_nil (by simp), List.replicate_succ']

/-- An escaped text is read into the parts of the text with their tags made plain, whatever it goes on with. -/
theorem HasParts.parts_escaped {b : Nat} {s : List Char} {ps : List Part} (h : HasParts b s ps) {t : List Char}
    (hsep : Separate t) (hjoins : Joins t) :
    parts 0 0 (escapedText ps ++ t) = join (ps.map Part.escaped) (parts 0 0 t) := by
  induction h with
  | nil b =>
    have hslashes : escapedText (parts 0 b []) = List.replicate b '\\' ∧ (parts 0 b []).map Part.escaped = parts 0 b [] := by
      cases b <;> simp [parts, escapedText, Part.escaped, Part.text]
    rw [hslashes.1, hslashes.2, parts_replicate, Nat.zero_add]
    exact hjoins b
  | backslash _ ih => exact ih
  | @tag inside rest ps b htag _ ih =>
    have htext : escapedText (.tag b inside :: ps) ++ t =
        List.replicate (2 * b + 1) '\\' ++ ('[' :: inside ++ ']' :: (escapedText ps ++ t)) := by
      simp [escapedText, Part.escaped, Part.text]
    rw [htext, parts_replicate, parts_tag htag, ih, List.map_cons, Part.escaped, join_tag, Nat.zero_add]
  | @plain c s ps b hc hnone h ih =>
    have htext : escapedText (join [.plain (List.replicate b '\\' ++ [c])] ps) ++ t =
        List.replicate b '\\' ++ c :: (escapedText ps ++ t) := by
      rw [escapedText_join]
      simp [escapedText, Part.escaped, Part.text]
    have hnone' := splitTag_append_of_none (h.splitTag_escaped hnone) hsep
    rw [List.cons_append] at hnone'
    rw [htext, parts_replicate, parts_plain hc hnone', ih, map_escaped_join, join_assoc, Nat.zero_add]
    rfl

/-- The backslash that escaping adds behind a text that ends in a single one. -/
def addedBackslash (s : List Char) : List Char :=
  match s.reverse with
  | '\\' :: '\\' :: _ => []
  | '\\' :: _ => ['\\']
  | _ => []

theorem toList_escape (text : String) :
    (escape text).toList = escapedText (parts 0 0 text.toList) ++ addedBackslash text.toList := by
  have htext : ∀ p : Part, p.escaped.text = match p with
      | .plain s => s
      | .tag backslashes inside => List.replicate (2 * backslashes + 1) '\\' ++ '[' :: inside ++ [']'] := by
    intro p
    cases p <;> rfl
  rw [escape, String.toList_ofList, escapedText, List.flatMap_map]
  simp only [htext]
  rfl

theorem addedBackslash_cases (s : List Char) : addedBackslash s = [] ∨ addedBackslash s = ['\\'] := by
  unfold addedBackslash
  split
  · exact .inl rfl
  · exact .inr rfl
  · exact .inl rfl

/-- The parts of a text when it is escaped, before their tags are made plain. -/
def escapedParts (text : String) : List Part :=
  join (parts 0 0 text.toList) (parts 0 0 (addedBackslash text.toList))

theorem parts_escape_append (text : String) {t : List Char} (hsep : Separate t) (hjoins : Joins t) :
    parts 0 0 ((escape text).toList ++ t) = join ((escapedParts text).map Part.escaped) (parts 0 0 t) := by
  have h := hasParts_parts 0 text.toList
  rw [toList_escape, List.append_assoc, escapedParts, map_escaped_join, join_assoc]
  rcases addedBackslash_cases text.toList with hadded | hadded
  · rw [hadded, List.nil_append, h.parts_escaped hsep hjoins]
    rfl
  · have hsep' : Separate ('\\' :: t) := hsep.cons (by decide)
    rw [hadded, List.singleton_append, h.parts_escaped hsep' (joins_backslash hjoins), parts_backslash, hjoins]
    rfl

end RunParams.Console

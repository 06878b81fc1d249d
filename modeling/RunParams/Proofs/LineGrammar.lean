import RunParams.Document
import RunParams.Proofs.KeySpelling
import RunParams.Proofs.QuotedLiteral

/-!
# The grammar of lines

A line of a document is white space and perhaps a comment, or else it assigns a value to a key. The reader accepts exactly these
lines, and takes from them the path that the key spells and the value.
-/

namespace RunParams

/-! ## Runs of characters -/

/-- A text does not go on with a character of a kind. -/
def Stops (p : Char → Bool) (s : List Char) : Prop :=
  ∀ c r, s = c :: r → p c = false

/-- The longest beginning of a text whose characters are all of a kind, and the rest. -/
theorem span_iff {p : Char → Bool} {s l r : List Char} :
    s.takeWhile p = l ∧ s.dropWhile p = r ↔ s = l ++ r ∧ (∀ c ∈ l, p c = true) ∧ Stops p r := by
  constructor
  · rintro ⟨rfl, rfl⟩
    refine ⟨List.takeWhile_append_dropWhile.symm, List.all_eq_true.mp List.all_takeWhile, ?_⟩
    intro c t ht
    have hne : s.dropWhile p ≠ [] := by simp [ht]
    have := List.head_dropWhile_not p hne
    simpa [ht] using this
  · rintro ⟨rfl, hl, hr⟩
    have hrest : r.takeWhile p = [] ∧ r.dropWhile p = r := by
      cases r with
      | nil => simp
      | cons c t => simp [hr c t rfl]
    rw [List.takeWhile_append_of_pos hl, List.dropWhile_append_of_pos hl, hrest.1, hrest.2]
    simp

/-- White space, perhaps none. -/
def Blanks (w : List Char) : Prop :=
  ∀ c ∈ w, Text.isBlank c = true

theorem blanks_nil : Blanks [] :=
  nofun

theorem blanks_singleton {c : Char} (h : Text.isBlank c = true) : Blanks [c] :=
  fun _ hd => List.mem_singleton.mp hd ▸ h

/-- A text after its white space. -/
theorem skipBlanks_eq_iff {s r : List Char} : Text.skipBlanks s = r ↔ ∃ w, Blanks w ∧ s = w ++ r ∧ Stops Text.isBlank r := by
  constructor
  · intro h
    obtain ⟨hs, hw, hr⟩ := span_iff.mp (⟨rfl, h⟩ : s.takeWhile Text.isBlank = _ ∧ _)
    exact ⟨_, hw, hs, hr⟩
  · rintro ⟨w, hw, hs, hr⟩
    exact (span_iff.mpr ⟨hs, hw, hr⟩).2

namespace Document

/-! ## The forms of lines -/

/-- Nothing, or a comment. -/
def IsRemark (s : List Char) : Prop :=
  s = [] ∨ ∃ c r, s = c :: r ∧ (c = '#' ∨ c = ';')

/-- A text that stands for a value before a rest: a quoted literal, or the longest run of characters that are not white space,
which is not empty and does not start like a literal or a comment. -/
inductive ValueForm : List Char → List Char → List Char → Prop
  | quoted {b v rest : List Char} (h : Quoted.Body b v) : ValueForm ('"' :: b ++ ['"']) rest v
  | bare {c : Char} {s rest : List Char} (hs : ∀ d ∈ c :: s, Text.isBlank d = false) (hc : c ≠ '"' ∧ c ≠ '#' ∧ c ≠ ';')
      (hrest : rest = [] ∨ ∃ d r, rest = d :: r ∧ Text.isBlank d = true) : ValueForm (c :: s) rest (c :: s)

/-- The form of an equals sign, a value and perhaps a comment behind a key. -/
def RestForm (rest : List Char) (value : String) : Prop :=
  ∃ w₁ w₂ v w₃ remark text, Blanks w₁ ∧ Blanks w₂ ∧ Blanks w₃ ∧ ValueForm v (w₃ ++ remark) text ∧ IsRemark remark ∧
    rest = w₁ ++ '=' :: w₂ ++ v ++ w₃ ++ remark ∧ value = String.ofList text

/-- The form of a line, with the path and the value if it assigns one. -/
inductive LineForm : List Char → Option (String × String) → Prop
  | remark {w s : List Char} (hw : Blanks w) (hs : IsRemark s) : LineForm (w ++ s) none
  | assignment {w k rest : List Char} {path value : String} (hw : Blanks w) (hk : k ≠ [])
      (hkc : ∀ c ∈ k, Text.isBlank c = false ∧ c ≠ '=') (hpath : Spelling.SpellsPath (String.ofList k) path)
      (hrest : RestForm rest value) : LineForm (w ++ k ++ rest) (some (path, value))

/-! ## Comments -/

theorem isDone_iff {s : List Char} : isDone s = true ↔ IsRemark s := by
  cases s with
  | nil => simp [isDone, IsRemark]
  | cons c s => simp [isDone, IsRemark]

/-- A comment is not white space. -/
theorem IsRemark.stops {s : List Char} (h : IsRemark s) : Stops Text.isBlank s := by
  rintro c r rfl
  rcases h with h | ⟨d, t, h, hd⟩
  · cases h
  · obtain ⟨rfl, rfl⟩ := List.cons.inj h
    rcases hd with rfl | rfl <;> decide

theorem skipBlanks_remark {w s : List Char} (hw : Blanks w) (hs : IsRemark s) : Text.skipBlanks (w ++ s) = s :=
  skipBlanks_eq_iff.mpr ⟨w, hw, rfl, hs.stops⟩

/-! ## Values -/

/-- A value starts with a character that is neither white space nor the start of a comment. -/
theorem ValueForm.head {v rest text : List Char} (h : ValueForm v rest text) :
    ∃ c s, v = c :: s ∧ Text.isBlank c = false ∧ c ≠ '#' ∧ c ≠ ';' := by
  cases h with
  | quoted h => exact ⟨_, _, rfl, by decide, by decide, by decide⟩
  | bare hs hc _ => exact ⟨_, _, rfl, hs _ (by simp), hc.2⟩

/-- A value is read off the text that starts with it. -/
theorem ValueForm.token {v rest text : List Char} (h : ValueForm v rest text) :
    Token.value (Token.startsQuoted (v ++ rest)) (v ++ rest) = .ok (text, rest) := by
  cases h with
  | @quoted b _ _ h =>
    have hb := h.decodeBody rest
    simpa [Token.startsQuoted, Token.value, Quoted.decode] using hb
  | @bare c s _ hs hc hrest =>
    have hstops : Stops (!Text.isBlank ·) rest := by
      rintro d r rfl
      rcases hrest with h | ⟨e, t, h, he⟩
      · cases h
      · obtain ⟨rfl, rfl⟩ := List.cons.inj h
        simp [he]
    obtain ⟨htake, hdrop⟩ := span_iff.mpr ⟨rfl, fun d hd => by simp [hs d hd], hstops⟩
    have hq : Token.startsQuoted (c :: s ++ rest) = false := by simp [Token.startsQuoted, hc.1]
    rw [hq, Token.value, if_neg Bool.false_ne_true, Token.bare, htake, hdrop]

/-- What is read off a text that starts like a value has the form of a value. -/
theorem valueForm_of_token {s text rest : List Char} (hs : isDone s = false) (hb : Stops Text.isBlank s)
    (h : Token.value (Token.startsQuoted s) s = .ok (text, rest)) : ∃ v, ValueForm v rest text ∧ s = v ++ rest := by
  cases s with
  | nil => simp [isDone] at hs
  | cons c s =>
    by_cases hq : c = '"'
    · subst hq
      have h' : Quoted.decodeBody s = .ok (text, rest) := h
      obtain ⟨b, hbody, rfl⟩ := Quoted.body_of_decodeBody h'
      exact ⟨_, .quoted hbody, by simp⟩
    · have hstart : Token.startsQuoted (c :: s) = false := by simp [Token.startsQuoted, hq]
      rw [hstart, Token.value, if_neg Bool.false_ne_true, Token.bare, Except.ok.injEq, Prod.mk.injEq] at h
      obtain ⟨happend, hall, hstops⟩ := span_iff.mp h
      have hc : Text.isBlank c = false := hb c s rfl
      -- The run is not empty, as its first character is not white space.
      cases text with
      | nil =>
        have := hstops c s happend.symm
        simp [hc] at this
      | cons d t =>
        obtain ⟨rfl, rfl⟩ := List.cons.inj happend
        refine ⟨c :: t, .bare (fun e he => by simpa using hall e he) ⟨hq, ?_⟩ ?_, rfl⟩
        · simpa [isDone] using hs
        · cases rest with
          | nil => exact .inl rfl
          | cons e r => exact .inr ⟨e, r, rfl, by simpa using hstops e r rfl⟩

/-- What follows a key is read with a value exactly when it has the form of an assignment of that value. -/
theorem readValue_eq_ok_iff {rest : List Char} {value : String} : readValue rest = .ok value ↔ RestForm rest value := by
  constructor
  · intro h
    unfold readValue at h
    split at h
    · rename_i s hs
      obtain ⟨w₁, hw₁, hrest, -⟩ := skipBlanks_eq_iff.mp hs
      obtain ⟨w₂, hw₂, hs', hstops⟩ := skipBlanks_eq_iff.mp (rfl : Text.skipBlanks s = _)
      dsimp only at h
      split at h
      · cases h
      · rename_i hdone
        split at h
        · cases h
        · rename_i text after hvalue
          obtain ⟨v, hv, hsv⟩ := valueForm_of_token (by simpa using hdone) hstops hvalue
          obtain ⟨w₃, hw₃, hafter, -⟩ := skipBlanks_eq_iff.mp (rfl : Text.skipBlanks after = _)
          split at h
          · rename_i hremark
            cases h
            rw [hafter] at hv
            refine ⟨w₁, w₂, v, w₃, _, text, hw₁, hw₂, hw₃, hv, isDone_iff.mp hremark, ?_, rfl⟩
            rw [hrest, hs', hsv]
            simp only [List.append_assoc, List.cons_append]
            rw [← hafter]
          · cases h
    · cases h
  · rintro ⟨w₁, w₂, v, w₃, remark, text, hw₁, hw₂, hw₃, hv, hremark, rfl, rfl⟩
    obtain ⟨c, t, hct, hblank, hc⟩ := hv.head
    have hequals : Text.skipBlanks (w₁ ++ '=' :: w₂ ++ v ++ w₃ ++ remark) = '=' :: (w₂ ++ (v ++ (w₃ ++ remark))) := by
      refine skipBlanks_eq_iff.mpr ⟨w₁, hw₁, by simp, ?_⟩
      intro d r hd
      obtain ⟨rfl, -⟩ := List.cons.inj hd
      decide
    have hvalue : Text.skipBlanks (w₂ ++ (v ++ (w₃ ++ remark))) = v ++ (w₃ ++ remark) := by
      refine skipBlanks_eq_iff.mpr ⟨w₂, hw₂, rfl, ?_⟩
      intro d r hd
      rw [hct] at hd
      obtain ⟨rfl, -⟩ := List.cons.inj hd
      exact hblank
    have hdone : isDone (v ++ (w₃ ++ remark)) = false := by simp [hct, isDone, hc]
    have hend : isDone remark = true := isDone_iff.mpr hremark
    simp only [readValue, hequals, hvalue, hdone, hv.token, skipBlanks_remark hw₃ hremark, hend]
    simp

/-! ## Keys -/

theorem inKey_iff {c : Char} : Token.inKey c = true ↔ Text.isBlank c = false ∧ c ≠ '=' := by
  simp [Token.inKey]

/-- A line assigns nothing exactly when it is white space and perhaps a comment. -/
theorem readHead_eq_nothing_iff {line : List Char} : readHead line = .ok .nothing ↔ LineForm line none := by
  unfold readHead
  constructor
  · intro h
    dsimp only at h
    obtain ⟨w, hw, hline, -⟩ := skipBlanks_eq_iff.mp (rfl : Text.skipBlanks line = _)
    split at h
    · rename_i hdone
      rw [hline]
      exact .remark hw (isDone_iff.mp hdone)
    · cases hpath : Spelling.canonicalizePath (String.ofList (Token.key (Text.skipBlanks line)).1) with
      | error e =>
        rw [hpath] at h
        cases h
      | ok path =>
        rw [hpath] at h
        cases h
  · intro h
    cases h with
    | remark hw hs =>
      rw [skipBlanks_remark hw hs]
      simp [isDone_iff.mpr hs]

/-- A line is read up to its key with a path exactly when its first word spells the path. -/
theorem readHead_eq_key_iff {line rest : List Char} {path : String} :
    readHead line = .ok (.key path rest) ↔
      ∃ w k, Blanks w ∧ k ≠ [] ∧ (∀ c ∈ k, Text.isBlank c = false ∧ c ≠ '=') ∧ Spelling.SpellsPath (String.ofList k) path ∧
        line = w ++ k ++ rest ∧ Stops Token.inKey rest := by
  unfold readHead
  constructor
  · intro h
    dsimp only at h
    obtain ⟨w, hw, hline, hstops⟩ := skipBlanks_eq_iff.mp (rfl : Text.skipBlanks line = _)
    split at h
    · cases h
    · rename_i hdone
      cases hpath : Spelling.canonicalizePath (String.ofList (Token.key (Text.skipBlanks line)).1) with
      | error e =>
        rw [hpath] at h
        cases h
      | ok q =>
        rw [hpath] at h
        cases h
        obtain ⟨happend, hall, hend⟩ := span_iff.mp
          (⟨rfl, rfl⟩ : (Text.skipBlanks line).takeWhile Token.inKey = _ ∧ (Text.skipBlanks line).dropWhile Token.inKey = _)
        have hspells := Spelling.canonicalizePath_eq_ok_iff.mp hpath
        refine ⟨w, (Token.key (Text.skipBlanks line)).1, hw, ?_, fun c hc => inKey_iff.mp (hall c hc), hspells, ?_, hend⟩
        · intro hnil
          obtain ⟨c, t, hct, -⟩ := hspells.head
          simp [hnil] at hct
        · rw [List.append_assoc]
          exact hline.trans (congrArg (w ++ ·) happend)
  · rintro ⟨w, k, hw, hk, hkc, hpath, rfl, hstops⟩
    obtain ⟨c, s, rfl⟩ := List.exists_cons_of_ne_nil hk
    have hskip : Text.skipBlanks (w ++ (c :: s) ++ rest) = c :: s ++ rest := by
      refine skipBlanks_eq_iff.mpr ⟨w, hw, by simp, ?_⟩
      intro d r hd
      obtain ⟨rfl, -⟩ := List.cons.inj hd
      exact (hkc c (by simp)).1
    obtain ⟨htake, hdrop⟩ := span_iff.mpr ⟨rfl, fun d hd => inKey_iff.mpr (hkc d hd), hstops⟩
    have hdone : isDone (c :: s ++ rest) = false := by
      obtain ⟨d, t, hdt, hd⟩ := hpath.head
      obtain ⟨rfl, -⟩ := List.cons.inj (String.toList_ofList.symm.trans hdt)
      have hc : c ≠ '#' ∧ c ≠ ';' := ⟨by rintro rfl; exact absurd hd (by decide), by rintro rfl; exact absurd hd (by decide)⟩
      simp [isDone, hc]
    rw [hskip]
    simp only [hdone, Token.key, htake, hdrop, Spelling.canonicalizePath_eq_ok_iff.mpr hpath]
    rfl

end Document

end RunParams

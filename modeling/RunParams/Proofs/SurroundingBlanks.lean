import RunParams.Proofs.DocumentRuns
import RunParams.Proofs.Lines

/-!
# White space around lines

White space before and after the text of a line does not count: a document does the same, and fails at the same line with an error
of the same class, when each of its lines is surrounded by other white space. So it does not matter which line ends a file has.
-/

namespace RunParams

/-! ## Texts with white space around them -/

section

variable {w : List Char} (hw : Blanks w)
include hw

theorem skipBlanks_blanks_append (s : List Char) : Text.skipBlanks (w ++ s) = Text.skipBlanks s :=
  List.dropWhile_append_of_pos hw

/-- Skipping the white space before a text leaves that behind it, unless the text is nothing else. -/
theorem skipBlanks_append_blanks (s : List Char) :
    Text.skipBlanks (s ++ w) = if Text.skipBlanks s = [] then [] else Text.skipBlanks s ++ w := by
  have hnil : Text.skipBlanks w = [] := by
    have hskip := skipBlanks_blanks_append hw []
    rw [List.append_nil] at hskip
    exact hskip
  rw [Text.skipBlanks, List.dropWhile_append]
  simp only [List.isEmpty_iff]
  exact if_congr Iff.rfl hnil rfl

/-- White space behind a text stays behind the run of characters that the text begins with, if the run can have no white space. -/
theorem span_append_blanks {p : Char → Bool} (hp : ∀ c, Text.isBlank c = true → p c = false) (s : List Char) :
    (s ++ w).takeWhile p = s.takeWhile p ∧ (s ++ w).dropWhile p = s.dropWhile p ++ w := by
  obtain ⟨hs, hall, hstops⟩ := span_iff.mp (⟨rfl, rfl⟩ : s.takeWhile p = _ ∧ s.dropWhile p = _)
  refine span_iff.mpr ⟨?_, hall, ?_⟩
  · rw [← List.append_assoc, ← hs]
  · intro c r hc
    cases hrest : s.dropWhile p with
    | nil =>
      rw [hrest, List.nil_append] at hc
      exact hp c (hw c (by simp [hc]))
    | cons d t =>
      rw [hrest, List.cons_append] at hc
      obtain ⟨rfl, -⟩ := List.cons.inj hc
      exact hstops d t hrest

theorem trim_append_blanks (s : List Char) : Text.trim Text.isBlank (s ++ w) = Text.trim Text.isBlank s := by
  have hdrop := skipBlanks_append_blanks hw s
  rw [Text.skipBlanks, Text.skipBlanks] at hdrop
  rw [Text.trim, hdrop, Text.trim]
  split
  · rename_i hnil
    rw [hnil]
  · rw [List.reverse_append, List.dropWhile_append_of_pos fun c hc => hw c (List.mem_reverse.mp hc)]

end

/-- A text is what is left when it is trimmed, with white space before and after it. -/
theorem exists_trim (s : List Char) : ∃ w w', Blanks w ∧ Blanks w' ∧ s = w ++ Text.trim Text.isBlank s ++ w' := by
  obtain ⟨hs, hw, -⟩ := span_iff.mp (⟨rfl, rfl⟩ : s.takeWhile Text.isBlank = _ ∧ s.dropWhile Text.isBlank = _)
  generalize s.takeWhile Text.isBlank = w at hs hw
  obtain ⟨hr, hw', -⟩ := span_iff.mp
    (⟨rfl, rfl⟩ : (s.dropWhile Text.isBlank).reverse.takeWhile Text.isBlank = _ ∧ _)
  refine ⟨w, _, hw, fun c hc => hw' c (List.mem_reverse.mp hc), ?_⟩
  rw [List.append_assoc, Text.trim, ← List.reverse_append, ← hr, List.reverse_reverse]
  exact hs

/-! ## Lines that are the same when they are trimmed -/

namespace Text

/-- Two lines are the same when they are trimmed. -/
def SameTrimmed (line line' : List Char) : Prop :=
  trim isBlank line = trim isBlank line'

instance (line line' : List Char) : Decidable (SameTrimmed line line') :=
  inferInstanceAs (Decidable (_ = _))

/-- A text with `\r\n` for each newline. -/
def crlf (s : List Char) : List Char :=
  s.flatMap fun c => if c = '\n' then ['\r', '\n'] else [c]

theorem crlf_of_not_mem {l : List Char} (h : '\n' ∉ l) : crlf l = l := by
  induction l with
  | nil => rfl
  | cons c l ih =>
    obtain ⟨hc, hl⟩ := not_or.mp (mt List.mem_cons.mpr h)
    have hne : c ≠ '\n' := fun e => hc e.symm
    rw [crlf, List.flatMap_cons, if_neg hne]
    exact congrArg (c :: ·) (ih hl)

theorem crlf_append_newline {l : List Char} (h : '\n' ∉ l) (s : List Char) :
    crlf (l ++ '\n' :: s) = (l ++ ['\r']) ++ '\n' :: crlf s := by
  have hl := crlf_of_not_mem h
  rw [crlf] at hl ⊢
  rw [List.flatMap_append, hl, List.flatMap_cons, if_pos rfl, ← crlf]
  simp

/-- Lines are kept by `\r\n` between them, but for white space behind all but the last. -/
theorem sameTrimmed_crlf_unlines {ls : List (List Char)} (hne : ls ≠ []) (h : ∀ l ∈ ls, '\n' ∉ l) :
    List.Forall₂ SameTrimmed ls (lines (crlf (unlines ls))) := by
  induction ls with
  | nil => exact absurd rfl hne
  | cons l ls ih =>
    obtain ⟨hl, hls⟩ := List.forall_mem_cons.mp h
    by_cases hnil : ls = []
    · have hunlines : unlines [l] = l := by simp [unlines]
      rw [hnil, hunlines, crlf_of_not_mem hl, lines_of_not_mem hl]
      exact .cons rfl .nil
    · have hreturn : '\n' ∉ l ++ ['\r'] := by simp [hl]
      rw [unlines_cons hnil, crlf_append_newline hl, lines_append_newline, lines_of_not_mem hreturn]
      exact .cons (trim_append_blanks (blanks_singleton (by decide)) l).symm (ih hnil hls)

/-- The lines of a text are kept when each newline becomes `\r\n`, but for white space behind all but the last. -/
theorem sameTrimmed_crlf (s : List Char) : List.Forall₂ SameTrimmed (lines s) (lines (crlf s)) := by
  have h := sameTrimmed_crlf_unlines (lines_ne_nil s) fun l hl => not_mem_of_mem_lines hl
  rwa [unlines_lines] at h

end Text

/-! ## Classes of errors -/

/-- The classes of the errors of lines. -/
inductive ErrorClass
  | badKey
  | duplicate
  | badForm
  | badQuote
  | conflict
  deriving DecidableEq

/-- The class of the error of a line. -/
def LineError.errorClass : LineError → ErrorClass
  | .badKey _ => .badKey
  | .duplicate _ => .duplicate
  | .notAssignment => .badForm
  | .badQuote _ => .badQuote
  | .trailing _ => .badForm
  | .tree _ => .conflict

/-- What is said of a document error, but for its wording: the document, the line and the class. -/
def DocumentError.placed (e : DocumentError) : String × Nat × ErrorClass :=
  (e.source, e.line, e.cause.errorClass)

namespace Document

/-- Two documents do the same but for the wording of the error: they make the same tree, and fail in the same place if at all. -/
def SameButWording (a b : Tree × Option DocumentError) : Prop :=
  a.1 = b.1 ∧ a.2.map DocumentError.placed = b.2.map DocumentError.placed

/-! ## Tokens -/

/-- White space at the end of a text is behind the closing quote of a literal that the text begins with. -/
theorem decode_append_blanks_iff {w : List Char} (hw : Blanks w) {s v r : List Char} :
    Quoted.decode (s ++ w) = .ok (v, r) ↔ ∃ r', Quoted.decode s = .ok (v, r') ∧ r = r' ++ w := by
  simp only [Quoted.decode_eq_ok_iff]
  constructor
  · rintro ⟨units, hunits, htext⟩
    rw [List.append_cons] at htext
    rcases List.append_eq_append_iff.mp htext with ⟨t, hs, hw'⟩ | ⟨t, hs, hr⟩
    · -- The closing quote is not white space, so that it does not stand in the white space.
      rcases List.eq_nil_or_concat t with rfl | ⟨t, c, rfl⟩
      · refine ⟨[], ⟨units, hunits, ?_⟩, by simpa using hw'.symm⟩
        simpa using hs.symm
      · rw [List.concat_eq_append, ← List.append_assoc] at hs
        obtain ⟨-, hc⟩ := List.append_inj' hs rfl
        obtain rfl := List.singleton_inj.mp hc
        exact absurd (hw '"' (by simp [hw'])) (by decide)
    · exact ⟨t, ⟨units, hunits, by simpa using hs⟩, hr⟩
  · rintro ⟨r', ⟨units, hunits, htext⟩, rfl⟩
    exact ⟨units, hunits, by simp [htext]⟩

/-- White space at the end of a text is behind the value that the text begins with. -/
theorem value_append_blanks {w : List Char} (hw : Blanks w) {quoted : Bool} {s v r : List Char}
    (h : Token.value quoted s = .ok (v, r)) : Token.value quoted (s ++ w) = .ok (v, r ++ w) := by
  cases quoted with
  | false =>
    obtain ⟨htake, hdrop⟩ := span_append_blanks hw (p := (!Text.isBlank ·)) (by simp) s
    obtain ⟨rfl, rfl⟩ := Prod.mk.inj (Except.ok.inj h)
    simp only [Token.value, Bool.false_eq_true, if_false, Token.bare, htake, hdrop]
  | true => exact (decode_append_blanks_iff hw).mpr ⟨r, h, rfl⟩

/-- A text that begins with no value does not begin with one when white space is behind it. -/
theorem value_append_blanks_of_error {w : List Char} (hw : Blanks w) {quoted : Bool} {s : List Char} {e : QuoteError}
    (h : Token.value quoted s = .error e) : ∃ e', Token.value quoted (s ++ w) = .error e' := by
  cases quoted with
  | false => cases h
  | true =>
    cases hsw : Token.value true (s ++ w) with
    | error e' => exact ⟨e', rfl⟩
    | ok p =>
      obtain ⟨r, hr, -⟩ := (decode_append_blanks_iff hw).mp (hsw : Quoted.decode (s ++ w) = .ok (p.1, p.2))
      rw [show Quoted.decode s = .error e from h] at hr
      cases hr

/-! ## Lines -/

/-- A line up to its key, with white space behind it. -/
def Head.append (w : List Char) : Head → Head
  | .nothing => .nothing
  | .key path rest => .key path (rest ++ w)

/-- What is read behind the equals sign of an assignment. -/
def readAssigned (s : List Char) : Except LineError String :=
  let s := Text.skipBlanks s
  if isDone s then .error .notAssignment
  else match Token.value (Token.startsQuoted s) s with
    | .error e => .error (.badQuote e)
    | .ok (value, rest) =>
      let rest := Text.skipBlanks rest
      if isDone rest then .ok (String.ofList value) else .error (.trailing (String.ofList rest))

theorem readValue_eq (rest : List Char) :
    readValue rest = match Text.skipBlanks rest with
      | '=' :: s => readAssigned s
      | _ => .error .notAssignment :=
  rfl

/-- What reading a line does, but for the wording of the error. -/
def outcome (overwrite : Bool) (p : Progress) (line : List Char) : Progress × Option ErrorClass :=
  ((readLine overwrite p line).1, (readLine overwrite p line).2.map LineError.errorClass)

section

variable {w : List Char} (hw : Blanks w)
include hw

/-- White space behind a line makes it neither empty nor a comment, and does not keep it from being one. -/
theorem isDone_append_blanks (s : List Char) : isDone (Text.skipBlanks (s ++ w)) = isDone (Text.skipBlanks s) := by
  rw [skipBlanks_append_blanks hw]
  cases Text.skipBlanks s <;> rfl

/-- White space behind a text that is left of a line stays behind it. -/
theorem skipBlanks_append_blanks_of_rest {s : List Char} (h : isDone (Text.skipBlanks s) ≠ true) :
    Text.skipBlanks (s ++ w) = Text.skipBlanks s ++ w := by
  have hne : Text.skipBlanks s ≠ [] := by
    intro hnil
    rw [hnil] at h
    exact h rfl
  rw [skipBlanks_append_blanks hw, if_neg hne]

theorem readHead_append_blanks (line : List Char) : readHead (line ++ w) = (readHead line).map (Head.append w) := by
  unfold readHead
  dsimp only
  rw [isDone_append_blanks hw]
  by_cases hdone : isDone (Text.skipBlanks line) = true
  · rw [if_pos hdone, if_pos hdone]
    rfl
  · have hkey : ∀ c, Text.isBlank c = true → Token.inKey c = false := fun c hc => by simp [Token.inKey, hc]
    obtain ⟨htake, hdrop⟩ := span_append_blanks hw hkey (Text.skipBlanks line)
    rw [if_neg hdone, if_neg hdone, skipBlanks_append_blanks_of_rest hw hdone]
    simp only [Token.key, htake, hdrop]
    cases Spelling.canonicalizePath (String.ofList ((Text.skipBlanks line).takeWhile Token.inKey)) <;> rfl

/-- White space behind what follows an equals sign changes neither the value nor the class of the error. -/
theorem readAssigned_append_blanks (s : List Char) :
    (readAssigned (s ++ w)).mapError LineError.errorClass = (readAssigned s).mapError LineError.errorClass := by
  unfold readAssigned
  dsimp only
  rw [isDone_append_blanks hw]
  by_cases hdone : isDone (Text.skipBlanks s) = true
  · rw [if_pos hdone, if_pos hdone]
  · have hstart : Token.startsQuoted (Text.skipBlanks s ++ w) = Token.startsQuoted (Text.skipBlanks s) := by
      cases hskip : Text.skipBlanks s with
      | nil =>
        rw [hskip] at hdone
        exact absurd rfl hdone
      | cons c t => rfl
    rw [if_neg hdone, if_neg hdone, skipBlanks_append_blanks_of_rest hw hdone, hstart]
    cases htoken : Token.value (Token.startsQuoted (Text.skipBlanks s)) (Text.skipBlanks s) with
    | error e =>
      -- Behind a backslash it is another error, but one of the same class.
      obtain ⟨e', he'⟩ := value_append_blanks_of_error hw htoken
      rw [he']
      rfl
    | ok p =>
      rw [value_append_blanks hw htoken]
      dsimp only
      rw [isDone_append_blanks hw]
      split <;> rfl

/-- White space behind what follows a key changes neither the value nor the class of the error. -/
theorem readValue_append_blanks (rest : List Char) :
    (readValue (rest ++ w)).mapError LineError.errorClass = (readValue rest).mapError LineError.errorClass := by
  rw [readValue_eq, readValue_eq, skipBlanks_append_blanks hw]
  cases Text.skipBlanks rest with
  | nil => rfl
  | cons c s =>
    rw [if_neg (List.cons_ne_nil c s), List.cons_append]
    by_cases hc : c = '='
    · rw [hc]
      exact readAssigned_append_blanks hw s
    · have hother : ∀ t : List Char, (match c :: t with
          | '=' :: s => readAssigned s
          | _ => .error .notAssignment) = .error .notAssignment := by
        intro t
        split
        · rename_i h
          exact absurd (List.cons.inj h).1 hc
        · rfl
      rw [hother, hother]

/-- What reading a line does, but for the wording of the error. -/
theorem outcome_append_blanks (overwrite : Bool) (p : Progress) (line : List Char) :
    outcome overwrite p (line ++ w) = outcome overwrite p line := by
  have hhead := readHead_append_blanks hw line
  unfold outcome readLine
  rw [hhead]
  cases readHead line with
  | error e => rfl
  | ok head =>
    cases head with
    | nothing => rfl
    | key path rest =>
      have hvalue := readValue_append_blanks hw rest
      simp only [Except.map, Head.append]
      split
      · rfl
      · generalize readValue (rest ++ w) = value' at hvalue
        generalize readValue rest = value at hvalue
        cases value <;> cases value' <;> simp_all [Except.mapError]

end

/-- White space around a line makes no difference. -/
theorem outcome_trim (overwrite : Bool) (p : Progress) (line : List Char) :
    outcome overwrite p (Text.trim Text.isBlank line) = outcome overwrite p line := by
  obtain ⟨w, w', hw, hw', hline⟩ := exists_trim line
  have hfront : ∀ s, outcome overwrite p (w ++ s) = outcome overwrite p s := by
    intro s
    unfold outcome readLine readHead
    simp only [skipBlanks_blanks_append hw]
  conv_rhs => rw [hline, outcome_append_blanks hw', hfront]

/-! ## Documents -/

/-- Lines that are the same when they are trimmed do the same, one after the other. -/
theorem readLines_of_sameTrimmed {lines lines' : List (List Char)} (h : List.Forall₂ Text.SameTrimmed lines lines')
    (source : String) (overwrite : Bool) (n : Nat) (p : Progress) :
    SameButWording (readLines source overwrite n p lines) (readLines source overwrite n p lines') := by
  induction h generalizing n p with
  | nil => exact ⟨rfl, rfl⟩
  | @cons line line' lines lines' hline _ ih =>
    have hout : outcome overwrite p line = outcome overwrite p line' := by
      rw [← outcome_trim, show Text.trim Text.isBlank line = _ from hline, outcome_trim]
    unfold outcome at hout
    rw [readLines, readLines]
    -- Both lines lead to the same progress, and either none or both of them end the reading.
    generalize readLine overwrite p line = a at hout
    generalize readLine overwrite p line' = b at hout
    obtain ⟨q, e⟩ := a
    obtain ⟨q', e'⟩ := b
    obtain ⟨rfl, he⟩ := Prod.mk.inj hout
    cases e with
    | none =>
      cases e' with
      | none => exact ih (n + 1) q
      | some e' => cases he
    | some e =>
      cases e' with
      | none => cases he
      | some e' => exact ⟨rfl, congrArg (Option.map fun c => (source, n, c)) he⟩

/-- Documents whose lines are the same when they are trimmed do the same to a tree: both are read to their ends, or both fail, at
the same line with an error of the same class. So does a document with the other line ends of files. -/
theorem read_trimmed (t : Tree) (source : String) (overwrite : Bool) :
    (∀ text text' : String, List.Forall₂ Text.SameTrimmed (Text.lines text.toList) (Text.lines text'.toList) →
        SameButWording (read t text source overwrite) (read t text' source overwrite)) ∧
      ∀ text : String,
        SameButWording (read t text source overwrite) (read t (String.ofList (Text.crlf text.toList)) source overwrite) := by
  refine ⟨fun text text' h => readLines_of_sameTrimmed h source overwrite 1 ⟨t, []⟩, fun text => ?_⟩
  have hlines := Text.sameTrimmed_crlf text.toList
  rw [← String.toList_ofList (l := Text.crlf text.toList)] at hlines
  exact readLines_of_sameTrimmed hlines source overwrite 1 ⟨t, []⟩

/-- A literal that ends with a backslash, and one with white space behind the backslash: the wording differs. -/
theorem read_trimmed_of_backslash :
    let text := "a = 1\nb = \"x\\\nc = 2"
    let text' := "\t a = 1\r\nb = \"x\\ \r\n c = 2"
    (read .empty text "case.ini" true).2 = some ⟨"case.ini", 2, .badQuote .endsAfterBackslash⟩ ∧
      (read .empty text' "case.ini" true).2 = some ⟨"case.ini", 2, .badQuote (.unknownEscape ' ')⟩ ∧
      (read .empty text "case.ini" true).1 = (read .empty text' "case.ini" true).1 := by
  intro text text'
  have hsame : List.Forall₂ Text.SameTrimmed (Text.lines text.toList) (Text.lines text'.toList) := by
    decide +kernel
  exact ⟨by decide +kernel, by decide +kernel, ((read_trimmed .empty "case.ini" true).1 text text' hsame).1⟩

end Document

end RunParams

import RunParams.Proofs.Escaping

/-!
# Rendering escaped text

Rendering a message never fails on a text that is escaped in it, and shows the text by itself, whatever stands around it. A text
may be shown in another way than it is written, as codes are for pictures, but it keeps its line ends.
-/

namespace RunParams.Console

variable {pics : Pictures}

/-! ## What is shown of plain text -/

theorem openBrackets_cons {c : Char} {s : List Char} (h : ∀ r, c :: s ≠ '\\' :: '[' :: r) :
    openBrackets (c :: s) = c :: openBrackets s := by
  rw [openBrackets.eq_def]
  split
  · rename_i r heq
    exact absurd heq (h r)
  · rename_i heq
    obtain ⟨rfl, rfl⟩ := List.cons.inj heq
    rfl
  · rename_i heq
    cases heq

/-- A backslash makes no bracket plain that is in another text. -/
theorem openBrackets_append (s : List Char) {t : List Char} (ht : ∀ r, t ≠ '[' :: r) :
    openBrackets (s ++ t) = openBrackets s ++ openBrackets t := by
  fun_induction openBrackets s with
  | case1 s ih =>
    rw [List.cons_append, List.cons_append, openBrackets, ih]
    rfl
  | case2 c s hc ih =>
    have hno : ∀ r, c :: (s ++ t) ≠ '\\' :: '[' :: r := by
      intro r heq
      obtain ⟨rfl, hs⟩ := List.cons.inj heq
      cases s with
      | nil => exact ht r hs
      | cons d s =>
        obtain ⟨rfl, -⟩ := List.cons.inj hs
        exact hc s rfl rfl
    rw [List.cons_append, openBrackets_cons hno, ih]
    rfl
  | case3 => rfl

/-- Whether a text starts with another is not changed by a character behind it that the other does not have. -/
theorem isPrefixOf_append {p : List Char} {c : Char} (hc : c ∉ p) (s t : List Char) :
    p.isPrefixOf (s ++ c :: t) = p.isPrefixOf s := by
  induction p generalizing s with
  | nil => simp
  | cons d p ih =>
    obtain ⟨hd, hp⟩ : c ≠ d ∧ c ∉ p := by simpa using hc
    cases s with
    | nil => simp [List.isPrefixOf, Ne.symm hd]
    | cons e s => simp [List.isPrefixOf, ih hp s]

/-- Whether a character may stand in the name of a code. -/
def inCode (c : Char) : Bool :=
  !Text.isBlank c && c != ':'

/-- The ways in which a code may end: with a colon, or with a variant and a colon. -/
inductive CodeEnd : List Char → List Char → Prop
  | plain : CodeEnd [':'] []
  | picture : CodeEnd "-emoji:".toList [Char.ofNat 0xFE0F]
  | text : CodeEnd "-text:".toList [Char.ofNat 0xFE0E]

/-- A code goes on from the characters of its name that have been read to one of its ends, without white space or colons in its
name. -/
theorem splitCode_spec {before s name variant rest : List Char} (h : splitCode before s = some (name, variant, rest)) :
    ∃ more stop, name = before.reverse ++ more ∧ s = more ++ stop ++ rest ∧ CodeEnd stop variant ∧
      ∀ d ∈ more, inCode d = true := by
  induction s generalizing before with
  | nil => cases h
  | cons c s ih =>
    rw [splitCode] at h
    split at h
    · rename_i hc
      cases h
      exact ⟨[], [':'], by simp, by simp [hc], .plain, by simp⟩
    · rename_i hc
      split at h
      · rename_i hp
        cases h
        obtain ⟨r, hr⟩ := List.isPrefixOf_iff_prefix.mp hp
        refine ⟨[], _, by simp, ?_, .picture, by simp⟩
        rw [← hr]
        rfl
      · split at h
        · rename_i hp
          cases h
          obtain ⟨r, hr⟩ := List.isPrefixOf_iff_prefix.mp hp
          refine ⟨[], _, by simp, ?_, .text, by simp⟩
          rw [← hr]
          rfl
        · split at h
          · cases h
          · rename_i hblank
            obtain ⟨more, stop, hname, hs, hstop, hmore⟩ := ih h
            refine ⟨c :: more, stop, by simp [hname], by simp [hs], hstop, ?_⟩
            exact List.forall_mem_cons.mpr ⟨by simp [inCode, hblank, hc], hmore⟩

/-- White space behind a text does not change which code it starts with. -/
theorem splitCode_append {c : Char} (hc : Text.isBlank c = true) (before s t : List Char) :
    splitCode before (s ++ c :: t) = (splitCode before s).map fun (name, variant, rest) => (name, variant, rest ++ c :: t) := by
  have hcolon : c ≠ ':' := by
    rintro rfl
    revert hc
    decide
  have hout : ∀ p : List Char, p.all (fun d => !Text.isBlank d) = true → c ∉ p := by
    intro p hall hmem
    have := List.all_eq_true.mp hall c hmem
    simp [hc] at this
  have hpicture : c ∉ "-emoji:".toList := hout _ (by decide)
  have htext : c ∉ "-text:".toList := hout _ (by decide)
  induction s generalizing before with
  | nil =>
    have hp := isPrefixOf_append hpicture [] t
    have ht := isPrefixOf_append htext [] t
    rw [List.nil_append] at hp ht
    change splitCode before (c :: t) = none
    rw [splitCode, if_neg hcolon, hp, ht, hc]
    rfl
  | cons d s ih =>
    have hp := isPrefixOf_append hpicture (d :: s) t
    have ht := isPrefixOf_append htext (d :: s) t
    rw [List.cons_append] at hp ht
    rw [List.cons_append, splitCode, splitCode, hp, ht]
    split
    · rfl
    · split
      · rename_i hprefix
        have hlen : 7 ≤ (d :: s).length := (List.isPrefixOf_iff_prefix.mp hprefix).length_le
        rw [← List.cons_append, List.drop_append_of_le_length hlen]
        rfl
      · split
        · rename_i hprefix
          have hlen : 6 ≤ (d :: s).length := (List.isPrefixOf_iff_prefix.mp hprefix).length_le
          rw [← List.cons_append, List.drop_append_of_le_length hlen]
          rfl
        · split
          · rfl
          · exact ih (d :: before)

/-- The pictures of a text are those before white space and those behind it. -/
theorem withPictures_append {c : Char} (hc : Text.isBlank c = true) {skip : Nat} {s : List Char} (hskip : skip ≤ s.length)
    (t : List Char) : withPictures pics skip (s ++ c :: t) = withPictures pics skip s ++ withPictures pics 0 (c :: t) := by
  induction s generalizing skip with
  | nil =>
    obtain rfl := Nat.le_zero.mp hskip
    rfl
  | cons d s ih =>
    cases skip with
    | succ n => exact ih (Nat.le_of_succ_le_succ hskip)
    | zero =>
      rw [List.cons_append, withPictures, withPictures]
      dsimp only
      split
      · rw [splitCode_append hc]
        cases hcode : splitCode [] s with
        | none =>
          rw [Option.map_none]
          dsimp only
          rw [ih (Nat.zero_le _)]
          rfl
        | some code =>
          obtain ⟨name, variant, rest⟩ := code
          have hlength : (s ++ c :: t).length - (rest ++ c :: t).length = s.length - rest.length := by
            simp only [List.length_append]
            omega
          rw [Option.map_some]
          dsimp only
          rw [hlength, ih (Nat.sub_le _ _), List.take_append_of_le_length (Nat.sub_le _ _)]
          split <;> simp
      · rw [ih (Nat.zero_le _)]
        rfl

/-- Plain text is shown by itself when white space follows. -/
theorem showPlain_append {c : Char} (hc : Text.isBlank c = true) (s t : List Char) :
    showPlain pics (s ++ c :: t) = showPlain pics s ++ showPlain pics (c :: t) := by
  rw [showPlain, withPictures_append hc (Nat.zero_le _), List.filter_append]
  rfl

/-! ## Rendering -/

theorem renderParts_plain (opened : List (List Char)) (position : Nat) (s : List Char) (rest : List Part) :
    renderParts pics opened position (.plain s :: rest) =
      (renderParts pics opened (position + s.length) rest).map (showPlain pics (openBrackets s) ++ ·) := by
  rw [renderParts]
  cases renderParts pics opened (position + s.length) rest <;> rfl

/-- A tag behind an odd number of backslashes is shown as it is, behind half of the others. -/
theorem renderParts_escaped (opened : List (List Char)) (position b : Nat) (inside : List Char) (rest : List Part) :
    ∃ next, renderParts pics opened position (Part.escaped (.tag b inside) :: rest) =
      (renderParts pics opened next rest).map (List.replicate b '\\' ++ showPlain pics ('[' :: inside ++ [']']) ++ ·) := by
  have hodd : (2 * b + 1) % 2 = 1 := by omega
  have hhalf : (2 * b + 1) / 2 = b := by omega
  refine ⟨position + (2 * b + 1) + inside.length + 2, ?_⟩
  rw [Part.escaped, renderParts]
  rw [if_pos hodd, hhalf]
  cases renderParts pics opened (position + (2 * b + 1) + inside.length + 2) rest <;> rfl

/-- A tag changes which tags are open, and nothing of it is shown. -/
theorem renderParts_tag {opened opened' : List (List Char)} {position : Nat} {inside : List Char}
    (h : applyTag opened position inside = .ok opened') (rest : List Part) :
    renderParts pics opened position (.tag 0 inside :: rest) = renderParts pics opened' (position + inside.length + 2) rest := by
  rw [renderParts, if_neg (by decide), Nat.add_zero, h]
  simp only [bind, Except.bind]
  cases renderParts pics opened' (position + inside.length + 2) rest <;> rfl

/-- Parts are shown as a text in front of whatever follows, where no tag is open. -/
def Shows (pics : Pictures) (ps : List Part) (text : List Char) : Prop :=
  ∀ position rest, ∃ next, renderParts pics [] position (ps ++ rest) = (renderParts pics [] next rest).map (text ++ ·)

theorem shows_nil : Shows pics [] [] := by
  intro position rest
  refine ⟨position, ?_⟩
  rw [List.nil_append]
  cases renderParts pics [] position rest <;> rfl

theorem Shows.append {ps qs : List Part} {x y : List Char} (hp : Shows pics ps x) (hq : Shows pics qs y) :
    Shows pics (ps ++ qs) (x ++ y) := by
  intro position rest
  obtain ⟨middle, hmiddle⟩ := hp position (qs ++ rest)
  obtain ⟨next, hnext⟩ := hq middle rest
  refine ⟨next, ?_⟩
  rw [List.append_assoc, hmiddle, hnext]
  cases renderParts pics [] next rest <;> simp [Except.map]

/-- Parts that are shown are rendered. -/
theorem Shows.render {ps : List Part} {x : List Char} (h : Shows pics ps x) (position : Nat) :
    renderParts pics [] position ps = .ok x := by
  obtain ⟨next, hnext⟩ := h position []
  rw [List.append_nil] at hnext
  rw [hnext, renderParts]
  simp [Except.map]

theorem shows_plain (s : List Char) : Shows pics [.plain s] (showPlain pics (openBrackets s)) :=
  fun position rest => ⟨position + s.length, renderParts_plain [] position s rest⟩

theorem shows_escaped (b : Nat) (inside : List Char) :
    Shows pics [Part.escaped (.tag b inside)] (List.replicate b '\\' ++ showPlain pics ('[' :: inside ++ [']'])) :=
  fun position rest => renderParts_escaped [] position b inside rest

/-- Plain text in a style. -/
theorem shows_styled {name : List Char} (hopen : ∀ position, applyTag [] position name = .ok [name])
    (hclose : ∀ position, applyTag [name] position ('/' :: name) = .ok []) (s : List Char) :
    Shows pics [.tag 0 name, .plain s, .tag 0 ('/' :: name)] (showPlain pics (openBrackets s)) := by
  intro position rest
  simp only [List.cons_append, List.nil_append]
  rw [renderParts_tag (hopen _), renderParts_plain, renderParts_tag (hclose _)]
  exact ⟨_, rfl⟩

/-- What is shown of a part when its tag is plain. -/
def Part.shown (pics : Pictures) : Part → List Char
  | .plain s => showPlain pics (openBrackets s)
  | .tag backslashes inside => List.replicate backslashes '\\' ++ showPlain pics ('[' :: inside ++ [']'])

/-- White space behind plain text is shown behind what is shown of the text. -/
theorem shows_plain_append {c : Char} (hc : Text.isBlank c = true) {z y : List Char} {qs : List Part}
    (hq : Shows pics (.plain (c :: z) :: qs) y) (x : List Char) :
    Shows pics (.plain (x ++ c :: z) :: qs) (showPlain pics (openBrackets x) ++ y) := by
  have hbracket : ∀ r, c :: z ≠ '[' :: r := by
    intro r heq
    obtain ⟨rfl, -⟩ := List.cons.inj heq
    revert hc
    decide
  have hbackslash : ∀ r, c :: z ≠ '\\' :: '[' :: r := by
    intro r heq
    obtain ⟨rfl, -⟩ := List.cons.inj heq
    revert hc
    decide
  have hshown : showPlain pics (openBrackets (x ++ c :: z)) =
      showPlain pics (openBrackets x) ++ showPlain pics (openBrackets (c :: z)) := by
    rw [openBrackets_append x hbracket, openBrackets_cons hbackslash, showPlain_append hc]
  intro position rest
  obtain ⟨next, hnext⟩ := hq (position + x.length) rest
  refine ⟨next, ?_⟩
  rw [List.cons_append, renderParts_plain] at hnext ⊢
  rw [List.length_append, ← Nat.add_assoc, hshown]
  revert hnext
  cases renderParts pics [] (position + x.length + (c :: z).length) (qs ++ rest) <;> cases renderParts pics [] next rest <;>
    simp [Except.map]

/-- The text of parts whose tags are made plain is shown in front of white space, or at the end. -/
theorem shows_join_escaped (ps : List Part) {qs : List Part} {y : List Char} (hq : Shows pics qs y)
    (hstart : qs = [] ∨ ∃ c z qs', Text.isBlank c = true ∧ qs = .plain (c :: z) :: qs') :
    Shows pics (join (ps.map Part.escaped) qs) (ps.flatMap (Part.shown pics) ++ y) := by
  induction ps with
  | nil => exact hq
  | cons p ps ih =>
    rw [List.map_cons, List.flatMap_cons, List.append_assoc]
    cases p with
    | tag b inside =>
      rw [Part.escaped, join_tag]
      exact (shows_escaped b inside).append ih
    | plain x =>
      cases ps with
      | cons q ps =>
        rw [join_cons_of_ne_nil _ (by simp)]
        exact (shows_plain x).append ih
      | nil =>
        rcases hstart with rfl | ⟨c, z, qs', hc, rfl⟩
        · exact (shows_plain x).append hq
        · exact shows_plain_append hc hq x

/-- A space before parts is shown before them. -/
theorem Shows.space {ps : List Part} {y : List Char} (h : Shows pics ps y) : Shows pics (consPlain ' ' ps) (' ' :: y) := by
  have hblank : Shows pics [.plain [' ']] [' '] := shows_plain [' ']
  cases ps with
  | nil => exact hblank.append h
  | cons p ps =>
    cases p with
    | tag b inside => exact hblank.append h
    | plain x =>
      intro position rest
      obtain ⟨next, hnext⟩ := h (position + 1) rest
      refine ⟨next, ?_⟩
      have hshown : showPlain pics (openBrackets (' ' :: x)) = ' ' :: showPlain pics (openBrackets x) := rfl
      rw [List.cons_append, renderParts_plain] at hnext
      rw [consPlain, List.cons_append, renderParts_plain, hshown, List.length_cons, Nat.add_comm x.length, ← Nat.add_assoc]
      revert hnext
      cases renderParts pics [] (position + 1 + x.length) (ps ++ rest) <;> cases renderParts pics [] next rest <;>
        simp [Except.map]

/-! ## Escaped text -/

/-- A text as it is shown when it is escaped. -/
def shown (pics : Pictures) (text : String) : String :=
  String.ofList ((escapedParts text).flatMap (Part.shown pics))

/-- What may follow an escaped text, and what is shown of it. -/
structure Follows (pics : Pictures) (t y : List Char) : Prop where
  separate : Separate t
  joins : Joins t
  shows : Shows pics (parts 0 0 t) y
  /-- It begins with white space, as a code for a picture could go on with it otherwise. -/
  start : parts 0 0 t = [] ∨ ∃ c z qs, Text.isBlank c = true ∧ parts 0 0 t = .plain (c :: z) :: qs

theorem follows_nil : Follows pics [] [] :=
  ⟨separate_nil, joins_nil, shows_nil, .inl rfl⟩

/-- An escaped text is shown by itself in front of what may follow it. -/
theorem shows_escape_append (text : String) {t y : List Char} (h : Follows pics t y) :
    Shows pics (parts 0 0 ((escape text).toList ++ t)) ((shown pics text).toList ++ y) := by
  rw [parts_escape_append text h.separate h.joins, shown, String.toList_ofList]
  exact shows_join_escaped _ h.shows h.start

-- A line number between colons can be the code of a picture.
example : shown numberPictures "a.ini:100: Syntax error" = "a.ini💯 Syntax error" := by decide +kernel

/-! ## Line ends -/

/-- No picture has a line end. -/
def Pictures.OnLine (pics : Pictures) : Prop :=
  ∀ code picture, pics code = some picture → '\n' ∉ picture.toList

theorem numberPictures_onLine : Pictures.OnLine numberPictures := by
  intro code picture h
  have hmem : (code, picture) ∈ [("100", "💯"), ("1234", "🔢")] := by
    rw [numberPictures, List.lookup_eq_some_iff] at h
    obtain ⟨before, after, hsplit, -⟩ := h
    simp [hsplit]
  simp only [List.mem_cons, Prod.mk.injEq, List.not_mem_nil, or_false] at hmem
  rcases hmem with ⟨-, rfl⟩ | ⟨-, rfl⟩
  · decide
  · decide

theorem count_openBrackets (s : List Char) : (openBrackets s).count '\n' = s.count '\n' := by
  fun_induction openBrackets s with
  | case1 s ih => simp [ih]
  | case2 c s _ ih => simp [List.count_cons, ih]
  | case3 => rfl

theorem CodeEnd.newline_not_mem {stop variant : List Char} (h : CodeEnd stop variant) : '\n' ∉ stop ∧ '\n' ∉ variant := by
  cases h with
  | plain => decide
  | picture => decide
  | text => decide

/-- A text keeps its line ends when pictures take the places of their codes. -/
theorem count_withPictures (h : pics.OnLine) (skip : Nat) (s : List Char) :
    (withPictures pics skip s).count '\n' = (s.drop skip).count '\n' := by
  induction s generalizing skip with
  | nil => simp [withPictures]
  | cons c s ih =>
    cases skip with
    | succ n => exact ih n
    | zero =>
      rw [withPictures, List.drop_zero]
      dsimp only
      split
      · rename_i hc
        subst hc
        cases hcode : splitCode [] s with
        | none => simp [ih]
        | some code =>
          obtain ⟨name, variant, rest⟩ := code
          obtain ⟨more, stop, -, rfl, hstop, hmore⟩ := splitCode_spec hcode
          have hlength : (more ++ stop ++ rest).length - rest.length = (more ++ stop).length := by
            rw [List.length_append, Nat.add_sub_cancel]
          obtain ⟨hstop', hvariant⟩ := hstop.newline_not_mem
          have hmore' : '\n' ∉ more := fun hmem => absurd (hmore _ hmem) (by decide)
          have hcode' : (':' :: (more ++ stop ++ rest)).count '\n' = rest.count '\n' := by
            simp [List.count_eq_zero_of_not_mem, hmore', hstop']
          have hrest := ih (more ++ stop).length
          rw [List.drop_left] at hrest
          dsimp only
          rw [hlength, List.take_left]
          split
          · rename_i picture hpicture
            rw [hcode', List.count_append, hrest, List.count_append, List.count_eq_zero_of_not_mem (h _ _ hpicture),
              List.count_eq_zero_of_not_mem hvariant, Nat.zero_add]
          · rw [List.count_append, hrest, ← List.count_append]
            rfl
      · simp [List.count_cons, ih]

theorem count_showPlain (h : pics.OnLine) (s : List Char) : (showPlain pics s).count '\n' = s.count '\n' := by
  rw [showPlain, List.count_filter (by decide), count_withPictures h, List.drop_zero]

/-- A text keeps its line ends when it is shown. -/
theorem count_shown (h : pics.OnLine) (text : String) : (shown pics text).toList.count '\n' = text.toList.count '\n' := by
  have hpart : ∀ p : Part, (p.shown pics).count '\n' = p.text.count '\n' := by
    intro p
    cases p with
    | plain s => rw [Part.shown, count_showPlain h, count_openBrackets, Part.text]
    | tag b inside => rw [Part.shown, Part.text, List.append_assoc, List.count_append, List.count_append, count_showPlain h]
  have hadded : ((parts 0 0 (addedBackslash text.toList)).flatMap Part.text).count '\n' = 0 := by
    rcases addedBackslash_cases text.toList with hadded | hadded
    · rw [hadded]
      rfl
    · rw [hadded]
      rfl
  have htext : ((escapedParts text).flatMap Part.text).count '\n' = text.toList.count '\n' := by
    rw [escapedParts, flatMap_text_join, List.count_append, hadded, (hasParts_parts 0 text.toList).flatMap_text]
    rfl
  rw [shown, String.toList_ofList, ← htext, List.count_flatMap, List.count_flatMap]
  congr 1
  exact List.map_congr_left fun p _ => hpart p

end RunParams.Console

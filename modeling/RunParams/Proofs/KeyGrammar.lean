import Mathlib.Computability.Language
import RunParams.Proofs.KeySpelling

/-!
# The grammar of keys

The keys that are accepted form a regular language, and so do the names that they are accepted with. What a key is accepted with
is told character by character, each by the one before it.
-/

namespace RunParams.Spelling

open Computability

/-! ## Languages -/

/-- The texts of one character that lies in a range. -/
def within (first last : Char) : Language Char :=
  {w | ∃ c, w = [c] ∧ first ≤ c ∧ c ≤ last}

def capital : Language Char :=
  within 'A' 'Z'

def letter : Language Char :=
  capital + within 'a' 'z'

def letterOrDigit : Language Char :=
  letter + within '0' '9'

def dash : Language Char :=
  within '-' '-'

/-- The keys: a letter, and then letters, digits, and dashes with a letter after each. -/
def keys : Language Char :=
  letter * (dash * letter + letterOrDigit)∗

/-- The names: a letter, and then letters and digits. -/
def names : Language Char :=
  letter * letterOrDigit∗

/-- The canonical names: a capital, and then letters and digits. -/
def canonicalNames : Language Char :=
  capital * letterOrDigit∗

/-- A language of texts of one character, those with a property. -/
def IsClass (l : Language Char) (p : Char → Bool) : Prop :=
  ∀ w, w ∈ l ↔ ∃ c, w = [c] ∧ p c = true

theorem isClass_within (first last : Char) :
    IsClass (within first last) fun c => decide (first ≤ c) && decide (c ≤ last) := by
  intro w
  simp only [Bool.and_eq_true, decide_eq_true_iff]
  rfl

theorem IsClass.add {l m : Language Char} {p q : Char → Bool} (hl : IsClass l p) (hm : IsClass m q) :
    IsClass (l + m) fun c => p c || q c := by
  intro w
  rw [Language.mem_add, hl, hm]
  simp only [Bool.or_eq_true, and_or_left, exists_or]

theorem isClass_capital : IsClass capital Char.isUpper := by
  -- This test decides both bounds at once, and the other two decide one after the other.
  intro w
  exact exists_congr fun c => and_congr_right fun _ => decide_eq_true_iff.symm

theorem isClass_letter : IsClass letter Char.isAlpha :=
  isClass_capital.add (isClass_within 'a' 'z')

theorem isClass_letterOrDigit : IsClass letterOrDigit Char.isAlphanum :=
  isClass_letter.add (isClass_within '0' '9')

theorem isClass_dash : IsClass dash (· == '-') := by
  intro w
  rw [dash, isClass_within]
  refine exists_congr fun c => and_congr_right fun _ => ?_
  rw [Bool.and_eq_true, decide_eq_true_iff, decide_eq_true_iff, beq_iff_eq]
  constructor
  · intro h
    exact Char.le_antisymm h.2 h.1
  · intro h
    subst h
    exact ⟨Char.le_refl _, Char.le_refl _⟩

/-- A text that begins with a character of a class and goes on in a language. -/
theorem IsClass.mem_mul {l m : Language Char} {p : Char → Bool} (hl : IsClass l p) {w : List Char} :
    w ∈ l * m ↔ ∃ c s, w = c :: s ∧ p c = true ∧ s ∈ m := by
  rw [Language.mem_mul]
  constructor
  · intro h
    obtain ⟨a, ha, s, hs, rfl⟩ := h
    obtain ⟨c, rfl, hc⟩ := (hl a).mp ha
    exact ⟨c, s, rfl, hc, hs⟩
  · intro h
    obtain ⟨c, s, rfl, hc, hs⟩ := h
    exact ⟨[c], (hl [c]).mpr ⟨c, rfl, hc⟩, s, hs, rfl⟩

/-- What may be repeated may stand in front of what is. -/
theorem append_mem_kstar {l : Language Char} {a s : List Char} (ha : a ∈ l) (hs : s ∈ l∗) : a ++ s ∈ l∗ := by
  obtain ⟨parts, rfl, hparts⟩ := Language.mem_kstar.mp hs
  exact Language.join_mem_kstar (L := a :: parts) (List.forall_mem_cons.mpr ⟨ha, hparts⟩)

/-- A text of characters of a class. -/
theorem IsClass.mem_kstar {l : Language Char} {p : Char → Bool} (hl : IsClass l p) {w : List Char} :
    w ∈ l∗ ↔ ∀ c ∈ w, p c = true := by
  constructor
  · intro h c hc
    obtain ⟨parts, rfl, hparts⟩ := Language.mem_kstar.mp h
    obtain ⟨a, ha, hca⟩ := List.mem_flatten.mp hc
    obtain ⟨d, rfl, hd⟩ := (hl a).mp (hparts a ha)
    rw [List.mem_singleton.mp hca]
    exact hd
  · intro h
    induction w with
    | nil => exact Language.nil_mem_kstar l
    | cons c w ih =>
      obtain ⟨hc, hw⟩ := List.forall_mem_cons.mp h
      exact append_mem_kstar ((hl [c]).mpr ⟨c, rfl, hc⟩) (ih hw)

/-- The canonical names are the texts of their language. -/
theorem isCanonical_iff {name : String} : IsCanonical name ↔ name.toList ∈ canonicalNames := by
  rw [canonicalNames, isClass_capital.mem_mul]
  simp only [isClass_letterOrDigit.mem_kstar]
  rfl

/-- What may follow the first letter of a key is what spells something. -/
theorem exists_spellsTail_iff {s : List Char} : (∃ n, SpellsTail s n) ↔ s ∈ (dash * letter + letterOrDigit)∗ := by
  constructor
  · intro h
    obtain ⟨n, h⟩ := h
    induction h with
    | nil => exact Language.nil_mem_kstar _
    | @plain c s n hc _ ih =>
      have hpart : [c] ∈ dash * letter + letterOrDigit := .inr ((isClass_letterOrDigit _).mpr ⟨c, rfl, hc⟩)
      exact append_mem_kstar hpart ih
    | @dash c s n hc _ ih =>
      have hpart : ['-', c] ∈ Spelling.dash * letter + letterOrDigit :=
        .inl (isClass_dash.mem_mul.mpr ⟨'-', [c], rfl, rfl, (isClass_letter _).mpr ⟨c, rfl, hc⟩⟩)
      exact append_mem_kstar hpart ih
  · intro h
    obtain ⟨parts, rfl, hparts⟩ := Language.mem_kstar.mp h
    clear h
    induction parts with
    | nil => exact ⟨[], .nil⟩
    | cons a parts ih =>
      obtain ⟨ha, hparts⟩ := List.forall_mem_cons.mp hparts
      obtain ⟨n, hn⟩ := ih hparts
      rcases ha with ha | ha
      · obtain ⟨d, b, rfl, hd, hb⟩ := isClass_dash.mem_mul.mp ha
        obtain ⟨c, rfl, hc⟩ := (isClass_letter b).mp hb
        obtain rfl := eq_of_beq hd
        exact ⟨_, .dash hc hn⟩
      · obtain ⟨c, rfl, hc⟩ := (isClass_letterOrDigit a).mp ha
        exact ⟨_, .plain hc hn⟩

/-! ## What keys are accepted with -/

/-- What becomes of a character behind another one: a dash is left out, and what stands behind a dash becomes a capital. -/
def joined (pair : Char × Char) : Option Char :=
  if pair.2 = '-' then none else some (if pair.1 = '-' then pair.2.toUpper else pair.2)

/-- A key without its dashes and with a capital in the place of each letter behind one, its first letter made a capital or not. -/
def normalForm (capitalize : Bool) : List Char → List Char
  | [] => []
  | c :: s => (if capitalize then c.toUpper else c) :: ((c :: s).zip s).filterMap joined

/-- What follows a letter or digit is spelled pair by pair. -/
theorem SpellsTail.filterMap_joined {s n : List Char} (h : SpellsTail s n) {c : Char} (hc : c.isAlphanum = true) :
    ((c :: s).zip s).filterMap joined = n := by
  induction h generalizing c with
  | nil => rfl
  | @plain d s n hd _ ih =>
    have hjoined : joined (c, d) = some d := by
      simp [joined, (of_isAlphanum hc).1, (of_isAlphanum hd).1]
    rw [List.zip_cons_cons, List.filterMap_cons_some hjoined, ih hd]
  | @dash d s n hd _ ih =>
    have hdash : joined (c, '-') = none := rfl
    have hjoined : joined ('-', d) = some d.toUpper := by
      simp [joined, (of_isAlphanum (isAlphanum_of_isAlpha hd)).1]
    rw [List.zip_cons_cons, List.filterMap_cons_none hdash, List.zip_cons_cons, List.filterMap_cons_some hjoined,
      ih (isAlphanum_of_isAlpha hd)]

/-- A key is accepted exactly when it is in the language, and then with its normal form. -/
theorem canonicalize_eq_ok_iff_normalForm {capitalize : Bool} {key name : String} :
    canonicalize capitalize key = .ok name ↔ key.toList ∈ keys ∧ name = String.ofList (normalForm capitalize key.toList) := by
  rw [canonicalize_eq_ok_iff_tail, keys, isClass_letter.mem_mul]
  constructor
  · intro h
    obtain ⟨c, s, n, hkey, hc, hs, rfl⟩ := h
    refine ⟨⟨c, s, hkey, hc, exists_spellsTail_iff.mp ⟨n, hs⟩⟩, ?_⟩
    rw [hkey, normalForm, hs.filterMap_joined (isAlphanum_of_isAlpha hc)]
  · intro h
    obtain ⟨⟨c, s, hkey, hc, hs⟩, rfl⟩ := h
    obtain ⟨n, hn⟩ := exists_spellsTail_iff.mpr hs
    refine ⟨c, s, n, hkey, hc, hn, ?_⟩
    rw [hkey, normalForm, hn.filterMap_joined (isAlphanum_of_isAlpha hc)]

/-- Why a text is no key. -/
inductive Fault (key : String) : NameError → Prop
  /-- There is nothing. -/
  | empty (h : key = "") : Fault key .empty
  /-- It begins with something else than a letter. -/
  | firstNotLetter (h : key ≠ "") (hfirst : key.toList ∉ letter * ⊤) : Fault key (.firstNotLetter key)
  /-- It begins with a letter, but does not go on as a key. -/
  | malformed (hfirst : key.toList ∈ letter * ⊤) (h : key.toList ∉ keys) : Fault key (.malformed key)

theorem mem_letter_mul_top {w : List Char} : w ∈ letter * ⊤ ↔ ∃ c s, w = c :: s ∧ c.isAlpha = true := by
  rw [isClass_letter.mem_mul]
  exact exists_congr fun c => exists_congr fun s => and_congr_right fun _ => and_iff_left trivial

theorem Fault.not_mem_keys {key : String} {e : NameError} (h : Fault key e) : key.toList ∉ keys := by
  cases h with
  | empty hkey => simp [hkey, keys, isClass_letter.mem_mul]
  | firstNotLetter _ hfirst =>
    intro hmem
    obtain ⟨c, s, hkey, hc, -⟩ := isClass_letter.mem_mul.mp hmem
    exact hfirst (mem_letter_mul_top.mpr ⟨c, s, hkey, hc⟩)
  | malformed _ hmem => exact hmem

/-- A text has one fault at most. -/
theorem Fault.unique {key : String} {d e : NameError} (hd : Fault key d) (he : Fault key e) : d = e := by
  have hempty : key = "" → key.toList ∉ letter * ⊤ := by
    intro hkey hfirst
    obtain ⟨c, s, hcons, -⟩ := mem_letter_mul_top.mp hfirst
    simp [hkey] at hcons
  cases hd <;> cases he <;> first | rfl | simp_all

/-- What a key is refused with is its fault. -/
theorem fault_of_canonicalize {capitalize : Bool} {key : String} {e : NameError} (h : canonicalize capitalize key = .error e) :
    Fault key e := by
  have hnot : key.toList ∉ keys := by
    intro hmem
    have hok : canonicalize capitalize key = .ok _ := canonicalize_eq_ok_iff_normalForm.mpr ⟨hmem, rfl⟩
    rw [h] at hok
    cases hok
  unfold canonicalize at h
  split at h
  · rename_i hkey
    cases h
    exact .empty (String.toList_eq_nil_iff.mp hkey)
  · rename_i c s hkey
    split at h
    · rename_i hc
      split at h
      · cases h
      · cases h
        exact .malformed (mem_letter_mul_top.mpr ⟨c, s, hkey, hc⟩) hnot
    · rename_i hc
      cases h
      refine .firstNotLetter ?_ ?_
      · intro hnil
        simp [hnil] at hkey
      · intro hfirst
        obtain ⟨d, r, hcons, hd⟩ := mem_letter_mul_top.mp hfirst
        obtain ⟨rfl, -⟩ := List.cons.inj (hkey.symm.trans hcons)
        exact hc hd

/-- A text that is no key has a fault, and is refused with it. -/
theorem canonicalize_eq_error_iff {capitalize : Bool} {key : String} {e : NameError} :
    canonicalize capitalize key = .error e ↔ Fault key e := by
  refine ⟨fault_of_canonicalize, fun h => ?_⟩
  cases hresult : canonicalize capitalize key with
  | ok name => exact absurd (canonicalize_eq_ok_iff_normalForm.mp hresult).1 h.not_mem_keys
  | error d => rw [(fault_of_canonicalize hresult).unique h]

/-! ## What names are accepted with -/

theorem mem_names {name : String} :
    name.toList ∈ names ↔ ∃ c s, name.toList = c :: s ∧ c.isAlpha = true ∧ ∀ d ∈ s, d.isAlphanum = true := by
  rw [names, isClass_letter.mem_mul]
  simp only [isClass_letterOrDigit.mem_kstar]

/-- What is accepted is a name, and is accepted as it is. -/
theorem names_of_canonicalize {capitalize : Bool} {key name : String} (h : canonicalize capitalize key = .ok name) :
    name.toList ∈ names ∧ canonicalize capitalize name = .ok name := by
  obtain ⟨c, s, n, -, hc, hs, rfl⟩ := canonicalize_eq_ok_iff_tail.mp h
  obtain ⟨hupper, -⟩ := toUpper_of_isAlpha hc
  have hfirst : (if capitalize then c.toUpper else c).isAlpha = true := by
    cases capitalize with
    | true => exact isAlpha_of_isUpper hupper
    | false => exact hc
  refine ⟨mem_names.mpr ⟨_, n, String.toList_ofList, hfirst, hs.isAlphanum⟩, canonicalize_eq_ok_iff_tail.mpr ?_⟩
  refine ⟨_, n, n, String.toList_ofList, hfirst, spellsTail_self hs.isAlphanum, ?_⟩
  cases capitalize with
  | true => simp [(toUpper_of_isAlpha (isAlpha_of_isUpper hupper)).2 hupper]
  | false => rfl

/-- With its first letter left as it is, a text is accepted as it is exactly when it is a name. -/
theorem canonicalize_false_eq_self_iff {name : String} : canonicalize false name = .ok name ↔ name.toList ∈ names := by
  refine ⟨fun h => (names_of_canonicalize h).1, fun h => ?_⟩
  obtain ⟨c, s, hname, hc, hs⟩ := mem_names.mp h
  refine canonicalize_eq_ok_iff_tail.mpr ⟨c, s, s, hname, hc, spellsTail_self hs, ?_⟩
  rw [if_neg Bool.false_ne_true, ← hname, String.ofList_toList]

/-! ## Dotted keys -/

/-- The canonical name that a key is accepted with. -/
def nameOf (key : String) : String :=
  String.ofList (normalForm true key.toList)

theorem spells_iff {key name : String} : Spells key name ↔ key.toList ∈ keys ∧ name = nameOf key :=
  canonicalize_eq_ok_iff.symm.trans canonicalize_eq_ok_iff_normalForm

/-- Names that the segments of a key spell are their names. -/
theorem forall₂_spells_iff {ks ns : List String} :
    List.Forall₂ Spells ks ns ↔ (∀ k ∈ ks, k.toList ∈ keys) ∧ ks.map nameOf = ns := by
  have hspells : Spells = fun key name => key.toList ∈ keys ∧ nameOf key = name := by
    funext key name
    rw [eq_comm (a := nameOf key), spells_iff]
  rw [hspells, List.forall₂_and_left, ← List.forall₂_map_left_iff, List.forall₂_eq_eq_eq]

/-- A dotted key is accepted exactly when all of its segments are keys, and then with the path of their names. -/
theorem canonicalizePath_eq_ok_iff_segments {key path : String} :
    canonicalizePath key = .ok path ↔ (∀ k ∈ segments key, k.toList ∈ keys) ∧ (segments key).map nameOf = segments path := by
  rw [canonicalizePath_eq_ok_iff]
  constructor
  · intro h
    obtain ⟨ns, hns, rfl⟩ := h
    rw [(segments_of_spells hns).2]
    exact forall₂_spells_iff.mp hns
  · intro h
    exact ⟨_, forall₂_spells_iff.mpr h, (dotted_segments path).symm⟩

/-- A dotted key is refused with the fault of the first of its segments that is no key. -/
theorem canonicalizePath_eq_error_iff {key : String} {e : NameError} :
    canonicalizePath key = .error e ↔
      ∃ before k after, segments key = before ++ k :: after ∧ (∀ b ∈ before, b.toList ∈ keys) ∧ Fault k e := by
  have haccepted : ∀ b, (∃ n, canonicalize true b = .ok n) ↔ b.toList ∈ keys := by
    intro b
    simp only [canonicalize_eq_ok_iff_normalForm, exists_and_left, exists_eq, and_true]
  have hbind : canonicalizePath key = .error e ↔ (segments key).mapM (canonicalize true) = .error e := by
    unfold canonicalizePath
    cases (segments key).mapM (canonicalize true) <;> simp [bind, Except.bind, pure, Except.pure]
  rw [hbind, mapM_eq_error]
  simp only [haccepted, canonicalize_eq_error_iff]

/-- A text is accepted as the key of a name exactly when it matches the grammar of keys, whatever characters it has, and then with
its normal form; else it is refused with its fault. What it is accepted with is a name, and is accepted as it is, as the canonical
names are, and no others. A dotted key is accepted exactly when all its segments are keys, and then with as many names, one for
each segment; that path is accepted as it is, and any other key is refused with the fault of its first segment that has one. -/
theorem keys_accepted_and_normalized :
    (∀ capitalize key,
      (key.toList ∈ keys → canonicalize capitalize key = .ok (String.ofList (normalForm capitalize key.toList))) ∧
      (key.toList ∉ keys → ∃ e, canonicalize capitalize key = .error e ∧ Fault key e) ∧
      (∀ name, canonicalize capitalize key = .ok name → name.toList ∈ names ∧ canonicalize capitalize name = .ok name)) ∧
    (∀ key, (canonicalize true key = .ok key ↔ key.toList ∈ canonicalNames) ∧
      (canonicalize false key = .ok key ↔ key.toList ∈ names)) ∧
    (∀ key,
      ((∃ path, canonicalizePath key = .ok path) ↔ ∀ k ∈ segments key, k.toList ∈ keys) ∧
      (∀ path, canonicalizePath key = .ok path →
        segments path = (segments key).map nameOf ∧ canonicalizePath path = .ok path) ∧
      (∀ e, canonicalizePath key = .error e ↔
        ∃ before k after, segments key = before ++ k :: after ∧ (∀ b ∈ before, b.toList ∈ keys) ∧ Fault k e)) := by
  refine ⟨fun capitalize key => ⟨?_, ?_, fun name h => names_of_canonicalize h⟩,
    fun key => ⟨canonicalize_eq_self_iff.trans isCanonical_iff, canonicalize_false_eq_self_iff⟩,
    fun key => ⟨?_, ?_, fun e => canonicalizePath_eq_error_iff⟩⟩
  · intro h
    exact canonicalize_eq_ok_iff_normalForm.mpr ⟨h, rfl⟩
  · intro h
    cases hresult : canonicalize capitalize key with
    | ok name => exact absurd (canonicalize_eq_ok_iff_normalForm.mp hresult).1 h
    | error e => exact ⟨e, rfl, fault_of_canonicalize hresult⟩
  · constructor
    · intro h
      obtain ⟨path, hpath⟩ := h
      exact (canonicalizePath_eq_ok_iff_segments.mp hpath).1
    · intro h
      obtain ⟨hcanonical, hsegments⟩ := segments_of_spells (forall₂_spells_iff.mpr ⟨h, rfl⟩)
      exact ⟨dotted ((segments key).map nameOf), canonicalizePath_eq_ok_iff_segments.mpr ⟨h, hsegments.symm⟩⟩
  · intro path h
    have hcanonical := (canonicalizePath_eq_ok_iff.mp h).isCanonical
    exact ⟨(canonicalizePath_eq_ok_iff_segments.mp h).2.symm, canonicalizePath_eq_self_iff.mpr hcanonical⟩

/-- A key with a dash and digits, one with a dash before a digit, and a key of two segments. -/
theorem keys_accepted_and_normalized_of_dashes :
    ("max-iter2D".toList ∈ keys ∧ canonicalize false "max-iter2D" = .ok "maxIter2D") ∧
      ("max-2D".toList ∉ keys ∧ ∃ e, canonicalize true "max-2D" = .error e ∧ Fault "max-2D" e) ∧
      (canonicalize true "max-iter2D" = .ok "MaxIter2D" ∧ "MaxIter2D".toList ∈ names ∧
        canonicalize true "MaxIter2D" = .ok "MaxIter2D") ∧
      (canonicalizePath "numerics.max-iter" = .ok "Numerics.MaxIter" ∧
        segments "Numerics.MaxIter" = (segments "numerics.max-iter").map nameOf) := by
  obtain ⟨hkey, -, hpath⟩ := keys_accepted_and_normalized
  have hname : canonicalize true "max-iter2D" = .ok "MaxIter2D" := by decide +kernel
  have hmem : "max-iter2D".toList ∈ keys := (canonicalize_eq_ok_iff_normalForm.mp hname).1
  have hsmall : String.ofList (normalForm false "max-iter2D".toList) = "maxIter2D" := by decide +kernel
  have hbad : canonicalize true "max-2D" = .error (.malformed "max-2D") := by decide +kernel
  have hnot : "max-2D".toList ∉ keys := (canonicalize_eq_error_iff.mp hbad).not_mem_keys
  have hdotted : canonicalizePath "numerics.max-iter" = .ok "Numerics.MaxIter" := by decide +kernel
  refine ⟨⟨hmem, ?_⟩, ⟨hnot, (hkey true _).2.1 hnot⟩, ⟨hname, (hkey true _).2.2 _ hname⟩, hdotted, ((hpath _).2.1 _ hdotted).1⟩
  rw [(hkey false _).1 hmem, hsmall]

end RunParams.Spelling

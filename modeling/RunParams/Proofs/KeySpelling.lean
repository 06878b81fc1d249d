import RunParams.Proofs.Paths
import RunParams.Proofs.Results
import RunParams.Text.Blank

/-!
# The spelling of keys

A key is a letter and then letters, digits, and dashes with a letter after each; the name that it spells is a capital and then
letters and digits. The flag of a name spells that name.
-/

namespace RunParams

/-! ## Letters and digits -/

/-- What holds of the first 128 characters. -/
theorem ascii_cases {P : Char → Prop} (h : ∀ n : Fin 128, P (Char.ofNat n)) {c : Char} (hc : c.toNat < 128) : P c := by
  have := h ⟨c.toNat, hc⟩
  rwa [Char.ofNat_toNat] at this

theorem toNat_lt_of_isAlphanum {c : Char} (h : c.isAlphanum = true) : c.toNat < 128 := by
  have hval : c.val ≤ 'Z'.val ∨ c.val ≤ 'z'.val ∨ c.val ≤ '9'.val := by
    rcases Bool.or_eq_true_iff.mp (h : (c.isAlpha || c.isDigit) = true) with ha | hd
    · rcases Bool.or_eq_true_iff.mp (ha : (c.isUpper || c.isLower) = true) with hu | hl
      · exact .inl (of_decide_eq_true hu).2
      · exact .inr (.inl (of_decide_eq_true (Bool.and_eq_true_iff.mp hl).2))
    · exact .inr (.inr (of_decide_eq_true (Bool.and_eq_true_iff.mp hd).2))
  have hbounds : 'Z'.val.toNat = 90 ∧ 'z'.val.toNat = 122 ∧ '9'.val.toNat = 57 := ⟨rfl, rfl, rfl⟩
  change c.val.toNat < 128
  simp only [UInt32.le_iff_toNat_le] at hval
  omega

theorem isAlphanum_of_isAlpha {c : Char} (h : c.isAlpha = true) : c.isAlphanum = true :=
  Bool.or_eq_true_iff.mpr (.inl h)

theorem isAlpha_of_isUpper {c : Char} (h : c.isUpper = true) : c.isAlpha = true :=
  Bool.or_eq_true_iff.mpr (.inl h)

/-- What letters and digits have in common: none of them separates tokens or names, and white space is none. -/
theorem of_isAlphanum {c : Char} (h : c.isAlphanum = true) :
    c ≠ '-' ∧ c ≠ '.' ∧ c ≠ '=' ∧ Text.isBlank c = false := by
  have hlt := toNat_lt_of_isAlphanum h
  revert h
  exact ascii_cases (P := fun c => c.isAlphanum = true → c ≠ '-' ∧ c ≠ '.' ∧ c ≠ '=' ∧ Text.isBlank c = false)
    (by decide) hlt

/-- The capital of a letter is a capital, and that of a capital is itself. -/
theorem toUpper_of_isAlpha {c : Char} (h : c.isAlpha = true) :
    c.toUpper.isUpper = true ∧ (c.isUpper = true → c.toUpper = c) := by
  have hlt := toNat_lt_of_isAlphanum (isAlphanum_of_isAlpha h)
  revert h
  exact ascii_cases (P := fun c => c.isAlpha = true → c.toUpper.isUpper = true ∧ (c.isUpper = true → c.toUpper = c))
    (by decide) hlt

/-- The small letter of a capital has that capital, and other letters and digits are their own lower case. -/
theorem lower_of_isAlphanum {c : Char} (h : c.isAlphanum = true) :
    Text.lower c = [c.toLower] ∧ Text.isUpper c = c.isUpper ∧
      (c.isUpper = true → c.toLower.isAlpha = true ∧ c.toLower.toUpper = c) ∧ (c.isUpper = false → c.toLower = c) := by
  have hlt := toNat_lt_of_isAlphanum h
  refine ⟨by rw [Text.lower, if_pos hlt], by rw [Text.isUpper, if_pos hlt], ?_⟩
  revert h
  exact ascii_cases (P := fun c => c.isAlphanum = true →
    (c.isUpper = true → c.toLower.isAlpha = true ∧ c.toLower.toUpper = c) ∧ (c.isUpper = false → c.toLower = c))
    (by decide) hlt

namespace Spelling

/-! ## Keys and the names that they spell -/

/-- What may follow the first letter of a key, and what it spells. -/
inductive SpellsTail : List Char → List Char → Prop
  | nil : SpellsTail [] []
  | plain {c : Char} {s n : List Char} (hc : c.isAlphanum = true) (h : SpellsTail s n) : SpellsTail (c :: s) (c :: n)
  | dash {c : Char} {s n : List Char} (hc : c.isAlpha = true) (h : SpellsTail s n) :
      SpellsTail ('-' :: c :: s) (c.toUpper :: n)

/-- A key spells a name. -/
def Spells (key name : String) : Prop :=
  ∃ c s n, key.toList = c :: s ∧ c.isAlpha = true ∧ SpellsTail s n ∧ name = String.ofList (c.toUpper :: n)

theorem undashed_eq_some_iff {s n : List Char} : undashed s = some n ↔ SpellsTail s n := by
  constructor
  · intro h
    fun_induction undashed s generalizing n with
    | case1 =>
      cases h
      exact .nil
    | case2 c s hc ih =>
      obtain ⟨m, hm, rfl⟩ := Option.map_eq_some_iff.mp h
      exact .dash hc (ih hm)
    | case3 c s hc => cases h
    | case4 c s _ hc ih =>
      obtain ⟨m, hm, rfl⟩ := Option.map_eq_some_iff.mp h
      exact .plain hc (ih hm)
    | case5 c s _ hc => cases h
  · intro h
    induction h with
    | nil => rfl
    | @plain c s n hc h ih =>
      have hne : c ≠ '-' := (of_isAlphanum hc).1
      rw [undashed.eq_def]
      split
      · simp_all
      · simp_all
      · rename_i e
        obtain ⟨rfl, rfl⟩ := List.cons.inj e
        rw [if_pos hc, ih]
        rfl
    | dash hc h ih =>
      rw [undashed, if_pos hc, ih]
      rfl

/-- What a key is accepted with: its first letter, made a capital or not, and then what the rest of the key spells. -/
theorem canonicalize_eq_ok_iff_tail {capitalize : Bool} {key name : String} :
    canonicalize capitalize key = .ok name ↔
      ∃ c s n, key.toList = c :: s ∧ c.isAlpha = true ∧ SpellsTail s n ∧
        name = String.ofList ((if capitalize then c.toUpper else c) :: n) := by
  unfold canonicalize
  constructor
  · intro h
    split at h
    · cases h
    · rename_i c s hkey
      split at h
      · rename_i hc
        split at h
        · rename_i n hn
          cases h
          exact ⟨c, s, n, hkey, hc, undashed_eq_some_iff.mp hn, rfl⟩
        · cases h
      · cases h
  · rintro ⟨c, s, n, hkey, hc, hs, rfl⟩
    simp [hkey, hc, undashed_eq_some_iff.mpr hs]

/-- A key is accepted with a name exactly when it spells the name. -/
theorem canonicalize_eq_ok_iff {key name : String} : canonicalize true key = .ok name ↔ Spells key name :=
  canonicalize_eq_ok_iff_tail

/-! ## Canonical names -/

/-- A canonical name is a capital and then letters and digits. -/
def IsCanonical (name : String) : Prop :=
  ∃ c s, name.toList = c :: s ∧ c.isUpper = true ∧ ∀ d ∈ s, d.isAlphanum = true

theorem SpellsTail.isAlphanum {s n : List Char} (h : SpellsTail s n) : ∀ d ∈ n, d.isAlphanum = true := by
  induction h with
  | nil => simp
  | plain hc _ ih =>
    intro d hd
    rcases List.mem_cons.mp hd with rfl | hd
    · exact hc
    · exact ih d hd
  | dash hc _ ih =>
    intro d hd
    rcases List.mem_cons.mp hd with rfl | hd
    · exact isAlphanum_of_isAlpha (isAlpha_of_isUpper (toUpper_of_isAlpha hc).1)
    · exact ih d hd

theorem spellsTail_self {s : List Char} (h : ∀ d ∈ s, d.isAlphanum = true) : SpellsTail s s := by
  induction s with
  | nil => exact .nil
  | cons c s ih => exact .plain (h c (by simp)) (ih fun d hd => h d (List.mem_cons_of_mem _ hd))

/-- Keys are made of letters, digits and dashes. -/
theorem Spells.mem {key name : String} (h : Spells key name) : ∀ d ∈ key.toList, d.isAlphanum = true ∨ d = '-' := by
  obtain ⟨c, s, n, hkey, hc, hs, -⟩ := h
  have htail : ∀ d ∈ s, d.isAlphanum = true ∨ d = '-' := by
    clear hkey
    induction hs with
    | nil => simp
    | plain hd _ ih =>
      intro e he
      rcases List.mem_cons.mp he with rfl | he
      · exact .inl hd
      · exact ih e he
    | dash hd _ ih =>
      intro e he
      rcases List.mem_cons.mp he with rfl | he
      · exact .inr rfl
      · rcases List.mem_cons.mp he with rfl | he
        · exact .inl (isAlphanum_of_isAlpha hd)
        · exact ih e he
  intro d hd
  rw [hkey] at hd
  rcases List.mem_cons.mp hd with rfl | hd
  · exact .inl (isAlphanum_of_isAlpha hc)
  · exact htail d hd

/-- What a key spells is canonical. -/
theorem Spells.isCanonical {key name : String} (h : Spells key name) : IsCanonical name := by
  obtain ⟨c, s, n, -, hc, hs, rfl⟩ := h
  exact ⟨c.toUpper, n, String.toList_ofList, (toUpper_of_isAlpha hc).1, hs.isAlphanum⟩

/-- The canonical names are those that spell themselves. -/
theorem canonicalize_eq_self_iff {name : String} : canonicalize true name = .ok name ↔ IsCanonical name := by
  rw [canonicalize_eq_ok_iff]
  refine ⟨Spells.isCanonical, ?_⟩
  rintro ⟨c, s, hname, hc, hs⟩
  refine ⟨c, s, s, hname, isAlpha_of_isUpper hc, spellsTail_self hs, ?_⟩
  rw [(toUpper_of_isAlpha (isAlpha_of_isUpper hc)).2 hc, ← hname, String.ofList_toList]

/-- A canonical name spells itself. -/
theorem IsCanonical.spells_self {name : String} (h : IsCanonical name) : Spells name name :=
  canonicalize_eq_ok_iff.mp (canonicalize_eq_self_iff.mpr h)

theorem IsCanonical.isAlphanum {name : String} (h : IsCanonical name) : ∀ d ∈ name.toList, d.isAlphanum = true := by
  obtain ⟨c, s, hname, hc, hs⟩ := h
  intro d hd
  rw [hname] at hd
  rcases List.mem_cons.mp hd with rfl | hd
  · exact isAlphanum_of_isAlpha (isAlpha_of_isUpper hc)
  · exact hs d hd

/-- A character that is neither a letter nor a digit is not in a canonical name. -/
theorem IsCanonical.not_mem {name : String} (h : IsCanonical name) {c : Char} (hc : c.isAlphanum = false) :
    c ∉ name.toList := by
  intro hmem
  rw [h.isAlphanum c hmem] at hc
  cases hc

/-- A canonical name has no dot. -/
theorem IsCanonical.dotFree {name : String} (h : IsCanonical name) : DotFree name :=
  h.not_mem (by decide)

/-! ## Dotted keys -/

/-- A dotted key spells a path when its segments spell the path's names. -/
def SpellsPath (key path : String) : Prop :=
  ∃ names, List.Forall₂ Spells (segments key) names ∧ path = dotted names

/-- A dotted key starts with a letter. -/
theorem SpellsPath.head {key path : String} (h : SpellsPath key path) : ∃ c s, key.toList = c :: s ∧ c.isAlpha = true := by
  obtain ⟨names, hnames, -⟩ := h
  obtain ⟨k, ks, hk⟩ := List.exists_cons_of_ne_nil (segments_ne_nil key)
  rw [hk, List.forall₂_cons_left_iff] at hnames
  obtain ⟨-, -, ⟨c, s, -, hkey, hc, -⟩, -⟩ := hnames
  obtain ⟨rest, hrest⟩ := exists_dotted_cons k ks
  rw [← hk, dotted_segments] at hrest
  exact ⟨c, s ++ rest.toList, by rw [hrest, String.toList_append, hkey, List.cons_append], hc⟩

/-- The names that the segments of a key spell are canonical, and are the segments of their path. -/
theorem segments_of_spells {key : String} {names : List String} (h : List.Forall₂ Spells (segments key) names) :
    (∀ n ∈ names, IsCanonical n) ∧ segments (dotted names) = names := by
  have hcanonical : ∀ n ∈ names, IsCanonical n := by
    intro n hn
    obtain ⟨i, hi, rfl⟩ := List.mem_iff_getElem.mp hn
    exact (h.get (h.length_eq ▸ hi) hi).isCanonical
  have hne : names ≠ [] := by
    intro hnil
    rw [hnil, List.forall₂_nil_right_iff] at h
    exact segments_ne_nil key h
  exact ⟨hcanonical, segments_dotted (fun n hn => (hcanonical n hn).dotFree) hne⟩

/-- The names of a path that a key spells are canonical. -/
theorem SpellsPath.isCanonical {key path : String} (h : SpellsPath key path) : ∀ n ∈ segments path, IsCanonical n := by
  obtain ⟨names, hnames, rfl⟩ := h
  obtain ⟨hcanonical, hsegments⟩ := segments_of_spells hnames
  rw [hsegments]
  exact hcanonical

/-- A dotted key is accepted with a path exactly when it spells the path. -/
theorem canonicalizePath_eq_ok_iff {key path : String} : canonicalizePath key = .ok path ↔ SpellsPath key path := by
  rw [canonicalizePath, bind_eq_ok, SpellsPath]
  simp only [mapM_eq_ok, canonicalize_eq_ok_iff]
  constructor
  · rintro ⟨names, hnames, h⟩
    cases h
    exact ⟨names, hnames, rfl⟩
  · rintro ⟨names, hnames, rfl⟩
    exact ⟨names, hnames, rfl⟩

/-! ## Canonical paths -/

/-- A canonical path: all of its names are canonical. -/
def IsCanonicalPath (path : String) : Prop :=
  ∀ n ∈ segments path, IsCanonical n

namespace IsCanonicalPath

variable {path : String}

/-- A canonical path spells itself. -/
theorem spellsPath (h : IsCanonicalPath path) : SpellsPath path path := by
  exact ⟨segments path, List.forall₂_same.mpr fun n hn => (h n hn).spells_self, (dotted_segments path).symm⟩

/-- A canonical path is made of letters, digits and dots, none of which ends a key. -/
theorem mem_toList (h : IsCanonicalPath path) : ∀ c ∈ path.toList, Text.isBlank c = false ∧ c ≠ '=' := by
  intro c hc
  rw [← dotted_segments path] at hc
  rcases mem_toList_dotted hc with rfl | ⟨n, hn, hc⟩
  · decide
  · obtain ⟨-, -, hequals, hblank⟩ := of_isAlphanum ((h n hn).isAlphanum c hc)
    exact ⟨hblank, hequals⟩

theorem newline_not_mem (h : IsCanonicalPath path) : '\n' ∉ path.toList := by
  intro hmem
  exact absurd (h.mem_toList '\n' hmem).1 (by decide)

theorem toList_ne_nil (h : IsCanonicalPath path) : path.toList ≠ [] := by
  obtain ⟨c, s, hs, -⟩ := h.spellsPath.head
  simp [hs]

end IsCanonicalPath

/-- The canonical paths are those that are accepted as they are. -/
theorem canonicalizePath_eq_self_iff {path : String} : canonicalizePath path = .ok path ↔ IsCanonicalPath path := by
  rw [canonicalizePath_eq_ok_iff]
  exact ⟨SpellsPath.isCanonical, IsCanonicalPath.spellsPath⟩

/-! ## Flags -/

/-- What follows the leading dashes of the flag of a canonical name spells the name. -/
theorem spellsTail_dashed {s : List Char} (h : ∀ d ∈ s, d.isAlphanum = true) : SpellsTail (dashed s) s := by
  induction s with
  | nil => exact .nil
  | cons c s ih =>
    obtain ⟨hlower, hupper, hcap, hsmall⟩ := lower_of_isAlphanum (h c (by simp))
    have hs := ih fun d hd => h d (List.mem_cons_of_mem _ hd)
    rw [dashed, hlower, hupper]
    cases hc : c.isUpper with
    | true =>
      obtain ⟨hl, hu⟩ := hcap hc
      have := SpellsTail.dash hl hs
      rw [hu] at this
      exact this
    | false =>
      rw [hsmall hc]
      exact .plain (h c (by simp)) hs

/-- The flag of a canonical name: its leading dashes, one for a name of one letter and else two, and a key that spells it. -/
theorem IsCanonical.toFlag {name : String} (h : IsCanonical name) :
    ∃ key : String, Spells key name ∧
      ((∃ c, key = String.ofList [c] ∧ c.isAlpha = true ∧ toFlag name = String.ofList ['-', c]) ∨
        toFlag name = "--" ++ key) := by
  obtain ⟨c, s, hname, hc, hs⟩ := h
  obtain ⟨hlower, -, hcap, -⟩ := lower_of_isAlphanum (isAlphanum_of_isAlpha (isAlpha_of_isUpper hc))
  obtain ⟨hl, hu⟩ := hcap hc
  have hspells : Spells (String.ofList (c.toLower :: dashed s)) name := by
    refine ⟨c.toLower, dashed s, s, String.toList_ofList, hl, spellsTail_dashed hs, ?_⟩
    rw [hu, ← hname, String.ofList_toList]
  refine ⟨_, hspells, ?_⟩
  · cases s with
    | nil =>
      refine .inl ⟨c.toLower, rfl, hl, ?_⟩
      rw [Spelling.toFlag, hname]
      simp [hlower]
    | cons d s =>
      right
      rw [Spelling.toFlag, hname]
      apply String.toList_injective
      simp [hlower, dashed]

end Spelling

end RunParams

import RunParams.Proofs.KeySpelling

/-!
# Flags

A flag is a key behind at most two dashes. The flag of a canonical name is one for that name, so that no two names share a flag;
and it is what remains of any flag of the name once that has been read.
-/

namespace RunParams.Spelling

/-! ## Flags and the names that they stand for -/

/-- A key does not start with a dash. -/
theorem Spells.ne_dash {key name : String} (h : Spells key name) (s : List Char) : key.toList ≠ '-' :: s := by
  obtain ⟨c, t, n, hkey, hc, -⟩ := h
  intro e
  obtain ⟨rfl, -⟩ := List.cons.inj (hkey.symm.trans e)
  exact absurd hc (by decide)

theorem ofFlag_key {key : String} (h : ∀ s, key.toList ≠ '-' :: s) : ofFlag key = canonicalize true key := by
  unfold ofFlag
  split
  · rename_i hs
    exact absurd hs (h _)
  · rename_i hs
    exact absurd hs (h _)
  · rw [String.ofList_toList]

theorem ofFlag_one_dash {key : String} (h : ∀ s, key.toList ≠ '-' :: s) : ofFlag ("-" ++ key) = canonicalize true key := by
  have hlist : ("-" ++ key).toList = '-' :: key.toList := by simp
  unfold ofFlag
  rw [hlist]
  split
  · rename_i hs
    exact absurd (List.cons.inj hs).2 (h _)
  · rename_i hs
    rw [← (List.cons.inj hs).2, String.ofList_toList]
  · rename_i hne
    exact absurd rfl (hne key.toList)

theorem ofFlag_two_dashes (key : String) : ofFlag ("--" ++ key) = canonicalize true key := by
  have hlist : ("--" ++ key).toList = '-' :: '-' :: key.toList := by simp
  unfold ofFlag
  rw [hlist]
  exact congrArg (canonicalize true) String.ofList_toList

/-- A flag is accepted with a name exactly when it is a key that spells the name, behind at most two dashes. -/
theorem ofFlag_eq_ok_iff {flag name : String} :
    ofFlag flag = .ok name ↔ ∃ key, Spells key name ∧ (flag = key ∨ flag = "-" ++ key ∨ flag = "--" ++ key) := by
  constructor
  · intro h
    unfold ofFlag at h
    split at h
    · rename_i s hs
      refine ⟨String.ofList s, canonicalize_eq_ok_iff.mp h, .inr (.inr ?_)⟩
      apply String.toList_injective
      simp [hs]
    · rename_i s _ hs
      refine ⟨String.ofList s, canonicalize_eq_ok_iff.mp h, .inr (.inl ?_)⟩
      apply String.toList_injective
      simp [hs]
    · rw [String.ofList_toList] at h
      exact ⟨flag, canonicalize_eq_ok_iff.mp h, .inl rfl⟩
  · rintro ⟨key, hkey, rfl | rfl | rfl⟩
    · rw [ofFlag_key hkey.ne_dash, canonicalize_eq_ok_iff]
      exact hkey
    · rw [ofFlag_one_dash hkey.ne_dash, canonicalize_eq_ok_iff]
      exact hkey
    · rw [ofFlag_two_dashes, canonicalize_eq_ok_iff]
      exact hkey

/-- A flag without all its leading dashes. -/
def withoutDashes (flag : String) : String :=
  String.ofList (flag.toList.dropWhile (· == '-'))

/-- Dashes in front of a key can be taken off again. -/
theorem Spells.withoutDashes {key name : String} (h : Spells key name) {dashes : List Char} (hd : ∀ c ∈ dashes, c = '-') :
    Spelling.withoutDashes (String.ofList dashes ++ key) = key := by
  obtain ⟨c, s, n, hkey, hc, -⟩ := h
  have hne : c ≠ '-' := (of_isAlphanum (isAlphanum_of_isAlpha hc)).1
  rw [Spelling.withoutDashes, String.toList_append, String.toList_ofList, hkey, List.dropWhile_append_of_pos (by simpa using hd),
    List.dropWhile_cons_of_neg (by simpa using hne), ← hkey, String.ofList_toList]

/-! ## The flag of a name -/

/-- The flag of a canonical name is a key that spells it, behind one dash or two. -/
theorem IsCanonical.exists_dashes {name : String} (h : IsCanonical name) :
    ∃ key, Spells key name ∧ (Spelling.toFlag name = "-" ++ key ∨ Spelling.toFlag name = "--" ++ key) := by
  obtain ⟨key, hkey, ⟨c, rfl, -, hflag⟩ | hflag⟩ := h.toFlag
  · refine ⟨_, hkey, .inl ?_⟩
    rw [hflag]
    apply String.toList_injective
    simp
  · exact ⟨_, hkey, .inr hflag⟩

/-- The flag of a canonical name stands for that name. -/
theorem IsCanonical.ofFlag_toFlag {name : String} (h : IsCanonical name) : ofFlag (Spelling.toFlag name) = .ok name := by
  obtain ⟨key, hkey, hflag⟩ := h.exists_dashes
  exact ofFlag_eq_ok_iff.mpr ⟨key, hkey, .inr hflag⟩

/-- The flag of a canonical name without its dashes spells that name. -/
theorem IsCanonical.canonicalize_withoutDashes {name : String} (h : IsCanonical name) :
    canonicalize true (withoutDashes (Spelling.toFlag name)) = .ok name := by
  obtain ⟨key, hkey, hflag | hflag⟩ := h.exists_dashes
  · rw [hflag, show "-" = String.ofList ['-'] from rfl, hkey.withoutDashes (by simp)]
    exact canonicalize_eq_ok_iff.mpr hkey
  · rw [hflag, show "--" = String.ofList ['-', '-'] from rfl, hkey.withoutDashes (by simp)]
    exact canonicalize_eq_ok_iff.mpr hkey

/-- What a flag stands for is canonical. -/
theorem isCanonical_of_ofFlag {flag name : String} (h : ofFlag flag = .ok name) : IsCanonical name := by
  obtain ⟨key, hkey, -⟩ := ofFlag_eq_ok_iff.mp h
  exact hkey.isCanonical

/-- A small letter, a digit or a dash. -/
def InFlag (c : Char) : Prop :=
  c.isLower = true ∨ c.isDigit = true ∨ c = '-'

/-- The lower case of a letter or a digit is a small letter or a digit. -/
theorem inFlag_toLower {c : Char} (h : c.isAlphanum = true) : ∀ d ∈ Text.lower c, InFlag d := by
  have hlower : c.toLower.isLower = true ∨ c.toLower.isDigit = true := by
    have hlt := toNat_lt_of_isAlphanum h
    revert h
    exact ascii_cases (P := fun c => c.isAlphanum = true → c.toLower.isLower = true ∨ c.toLower.isDigit = true)
      (by decide) hlt
  rw [(lower_of_isAlphanum h).1]
  intro d hd
  rw [List.mem_singleton.mp hd]
  exact hlower.imp_right .inl

theorem inFlag_dashed {s : List Char} (h : ∀ d ∈ s, d.isAlphanum = true) : ∀ c ∈ dashed s, InFlag c := by
  induction s with
  | nil => simp [dashed]
  | cons d s ih =>
    intro c hc
    rw [dashed, List.mem_append, List.mem_append] at hc
    rcases hc with (hc | hc) | hc
    · split at hc
      · exact .inr (.inr (List.mem_singleton.mp hc))
      · cases hc
    · exact inFlag_toLower (h d (by simp)) c hc
    · exact ih (fun e he => h e (List.mem_cons_of_mem _ he)) c hc

/-- The flag of a canonical name has small letters, digits and dashes only. -/
theorem IsCanonical.inFlag {name : String} (h : IsCanonical name) : ∀ c ∈ (Spelling.toFlag name).toList, InFlag c := by
  obtain ⟨d, s, hname, hd, hs⟩ := h
  have hfirst := inFlag_toLower (isAlphanum_of_isAlpha (isAlpha_of_isUpper hd))
  have hrest := inFlag_dashed hs
  intro c hc
  cases s with
  | nil =>
    rw [Spelling.toFlag, hname, String.toList_ofList] at hc
    rcases List.mem_cons.mp hc with rfl | hc
    · exact .inr (.inr rfl)
    · exact hfirst c hc
  | cons e s =>
    rw [Spelling.toFlag, hname, String.toList_ofList, List.mem_append] at hc
    rcases hc with hc | hc
    · rcases List.mem_cons.mp hc with rfl | hc
      · exact .inr (.inr rfl)
      · rcases List.mem_cons.mp hc with rfl | hc
        · exact .inr (.inr rfl)
        · exact hfirst c hc
    · exact hrest c hc

/-! ## There and back -/

/-- The flag of a canonical name stands for that name, with its dashes and without, so that different names have different flags.
Every flag that stands for something stands for a canonical name, whose own flag stands for it too, is made again of what it
stands for, and has small letters, digits and dashes only. -/
theorem flags_and_names :
    (∀ name, IsCanonical name → ofFlag (toFlag name) = .ok name ∧ canonicalize true (withoutDashes (toFlag name)) = .ok name) ∧
      (∀ m n, IsCanonical m → IsCanonical n → toFlag m = toFlag n → m = n) ∧
      ∀ flag name, ofFlag flag = .ok name →
        IsCanonical name ∧ ofFlag (toFlag name) = .ok name ∧ (ofFlag (toFlag name)).map toFlag = .ok (toFlag name) ∧
          ∀ c ∈ (toFlag name).toList, c.isLower = true ∨ c.isDigit = true ∨ c = '-' := by
  refine ⟨fun name h => ⟨h.ofFlag_toFlag, h.canonicalize_withoutDashes⟩, ?_, ?_⟩
  · intro m n hm hn h
    have hnames := hm.ofFlag_toFlag
    rw [h, hn.ofFlag_toFlag] at hnames
    exact (Except.ok.inj hnames).symm
  · intro flag name hflag
    have h := isCanonical_of_ofFlag hflag
    refine ⟨h, h.ofFlag_toFlag, ?_, h.inFlag⟩
    rw [h.ofFlag_toFlag]
    rfl

/-- A name with a run of capitals and a digit, which a flag with one dash stands for too. -/
theorem flags_and_names_of_capitals :
    toFlag "ABC2D" = "--a-b-c2-d" ∧ ofFlag (toFlag "ABC2D") = .ok "ABC2D" ∧ ofFlag "-aB-c2D" = .ok "ABC2D" ∧
      IsCanonical "ABC2D" ∧ ∀ n, IsCanonical n → toFlag n = toFlag "ABC2D" → n = "ABC2D" := by
  obtain ⟨hnames, hinjective, hflags⟩ := flags_and_names
  have hflag : ofFlag "-aB-c2D" = .ok "ABC2D" := by decide +kernel
  obtain ⟨hcanonical, -⟩ := hflags _ _ hflag
  exact ⟨by decide +kernel, (hnames _ hcanonical).1, hflag, hcanonical, fun n hn h => hinjective _ _ hn hcanonical h⟩

end RunParams.Spelling

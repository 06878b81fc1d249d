import RunParams.Tree

/-!
# Paths

A dotted text and the list of names between its dots determine each other, as long as the list is not empty and no name has a
dot of its own. One path stands above another when its names are the first of the other's, and the other has more.
-/

namespace RunParams

/-! ## Names and their text -/

/-- The text of names with dots between them. -/
def dotted (names : List String) : String :=
  ".".intercalate names

/-- A name without a dot. -/
def DotFree (name : String) : Prop :=
  '.' ∉ name.toList

instance (name : String) : Decidable (DotFree name) :=
  inferInstanceAs (Decidable (¬ '.' ∈ name.toList))

/-- A text has at least one segment. -/
theorem segments_ne_nil (s : String) : Spelling.segments s ≠ [] := by
  simp [Spelling.segments]

/-- A text is its segments with dots between them. -/
theorem dotted_segments (s : String) : dotted (Spelling.segments s) = s := by
  apply String.toList_injective
  rw [dotted, Spelling.segments, String.toList_intercalate, List.map_map]
  simp [Function.comp_def]

/-- Names without dots are the segments of their text. -/
theorem segments_dotted {names : List String} (hd : ∀ n ∈ names, DotFree n) (hne : names ≠ []) :
    Spelling.segments (dotted names) = names := by
  have hsplit : (['.'].intercalate (names.map String.toList)).splitOn '.' = names.map String.toList := by
    apply List.splitOn_intercalate
    · simpa [DotFree] using hd
    · simpa using hne
  rw [Spelling.segments, dotted, String.toList_intercalate, show ".".toList = ['.'] from rfl, hsplit, List.map_map]
  simp [Function.comp_def]

/-- The text of names starts with the first of them. -/
theorem exists_dotted_cons (n : String) (ns : List String) : ∃ rest, dotted (n :: ns) = n ++ rest := by
  cases ns with
  | nil => exact ⟨"", by simp [dotted]⟩
  | cons m ns => exact ⟨"." ++ dotted (m :: ns), by simp [dotted, String.intercalate_cons_cons, String.append_assoc]⟩

/-- A character of the text of names is a dot, or one of a name. -/
theorem mem_toList_dotted {c : Char} {names : List String} (h : c ∈ (dotted names).toList) :
    c = '.' ∨ ∃ n ∈ names, c ∈ n.toList := by
  induction names with
  | nil => simp [dotted] at h
  | cons n ns ih =>
    cases ns with
    | nil => exact .inr ⟨n, by simp, by simpa [dotted] using h⟩
    | cons m ns =>
      rw [dotted, String.intercalate_cons_cons] at h
      simp only [String.toList_append, List.mem_append] at h
      rcases h with (h | h) | h
      · exact .inr ⟨n, by simp, h⟩
      · exact .inl (by simpa using h)
      · rcases ih h with rfl | ⟨k, hk, hc⟩
        · exact .inl rfl
        · exact .inr ⟨k, List.mem_cons_of_mem _ hk, hc⟩

/-- Two texts with the same segments are the same. -/
theorem segments_inj {s t : String} : Spelling.segments s = Spelling.segments t ↔ s = t := by
  constructor
  · intro h
    rw [← dotted_segments s, ← dotted_segments t, h]
  · rintro rfl
    rfl

/-- Names that have no dots are told apart by their text. -/
theorem dotted_inj {l m : List String} (hl : ∀ n ∈ l, DotFree n) (hm : ∀ n ∈ m, DotFree n) (hl0 : l ≠ []) (hm0 : m ≠ []) :
    dotted l = dotted m ↔ l = m := by
  constructor
  · intro h
    rw [← segments_dotted hl hl0, ← segments_dotted hm hm0, h]
  · rintro rfl
    rfl

/-- No piece of a split has the character that was split at. -/
theorem not_mem_of_mem_splitOn {c : Char} {s w : List Char} (hw : w ∈ s.splitOn c) : c ∉ w := by
  induction s generalizing w with
  | nil =>
    rw [List.splitOn_nil, List.mem_singleton] at hw
    simp [hw]
  | cons d s ih =>
    obtain ⟨p, ps, hp⟩ := List.exists_cons_of_ne_nil (List.splitOn_ne_nil c s)
    rw [hp] at ih
    rw [List.splitOn_cons_eq_if_modifyHead, hp] at hw
    split at hw
    · rcases List.mem_cons.mp hw with rfl | hw
      · simp
      · exact ih hw
    · rename_i hd
      rcases List.mem_cons.mp hw with rfl | hw
      · have hcd : c ≠ d := fun e => hd (by simp [e])
        simp [hcd, ih (List.mem_cons_self ..)]
      · exact ih (List.mem_cons_of_mem _ hw)

/-- A segment has no dot. -/
theorem dotFree_of_mem_segments {s n : String} (h : n ∈ Spelling.segments s) : DotFree n := by
  obtain ⟨w, hw, rfl⟩ := List.mem_map.mp h
  rw [DotFree, String.toList_ofList]
  exact not_mem_of_mem_splitOn hw

/-- A text without dots is its only segment. -/
theorem segments_of_dotFree {s : String} (h : DotFree s) : Spelling.segments s = [s] := by
  have := @segments_dotted [s] (by simpa using h) (by simp)
  simpa [dotted] using this

/-- The segments of two texts with a dot between them. -/
theorem segments_append_dot (s t : String) :
    Spelling.segments (s ++ "." ++ t) = Spelling.segments s ++ Spelling.segments t := by
  have h : (s ++ "." ++ t).toList = s.toList ++ '.' :: t.toList := by simp
  simp only [Spelling.segments]
  rw [h, List.splitOn_append_cons_self, List.map_append]

/-- The names of a path that a text spells are its segments. -/
theorem names_ofString (s : String) : (Path.ofString s).first :: (Path.ofString s).rest = Spelling.segments s := by
  unfold Path.ofString
  split
  · rename_i h
    exact absurd h (segments_ne_nil s)
  · rename_i h
    exact h.symm

/-- A text without dots spells a path of one name. -/
theorem ofString_of_dotFree {s : String} (h : DotFree s) : Path.ofString s = ⟨s, []⟩ := by
  rw [Path.ofString, segments_of_dotFree h]

/-! ## Paths above paths -/

/-- A list is a proper beginning of another. -/
def ProperPrefix {α : Type} (l m : List α) : Prop :=
  ∃ a s, m = l ++ a :: s

/-- A path stands above another that goes on where it ends. -/
def IsAbove (p q : String) : Prop :=
  ∃ rest, q = p ++ "." ++ rest

/-- A path stands above another exactly when its segments are a proper beginning of the other's. -/
theorem isAbove_iff {p q : String} : IsAbove p q ↔ ProperPrefix (Spelling.segments p) (Spelling.segments q) := by
  constructor
  · rintro ⟨rest, rfl⟩
    obtain ⟨n, ns, hn⟩ := List.exists_cons_of_ne_nil (segments_ne_nil rest)
    exact ⟨n, ns, by rw [segments_append_dot, hn]⟩
  · rintro ⟨n, ns, h⟩
    refine ⟨dotted (n :: ns), ?_⟩
    have hd : ∀ m ∈ n :: ns, DotFree m := fun m hm => dotFree_of_mem_segments (s := q) (by simp [h, hm])
    rw [← segments_inj, segments_append_dot, segments_dotted hd (by simp), h]

/-- No path stands above a name without dots. -/
theorem IsAbove.not_dotFree {p q : String} (h : IsAbove p q) : ¬DotFree q := by
  obtain ⟨rest, rfl⟩ := h
  simp [DotFree]

/-- Nothing is a proper beginning of one name but the empty list. -/
theorem properPrefix_singleton {α : Type} {l : List α} {a : α} : ProperPrefix l [a] ↔ l = [] := by
  constructor
  · rintro ⟨b, s, h⟩
    have := congrArg List.length h
    cases l with
    | nil => rfl
    | cons c l => simp at this
  · rintro rfl
    exact ⟨a, [], rfl⟩

/-- Beginnings of lists with the same head. -/
theorem properPrefix_cons {α : Type} {l m : List α} {a b : α} :
    ProperPrefix (a :: l) (b :: m) ↔ a = b ∧ ProperPrefix l m := by
  constructor
  · rintro ⟨c, s, h⟩
    obtain ⟨hab, hm⟩ := List.cons.inj h
    exact ⟨hab.symm, c, s, hm⟩
  · rintro ⟨rfl, c, s, rfl⟩
    exact ⟨c, s, rfl⟩

/-- No path of a set of paths stands above another one of it. -/
def PrefixFree (paths : String → Prop) : Prop :=
  ∀ p q, paths p → paths q → ¬IsAbove p q

end RunParams

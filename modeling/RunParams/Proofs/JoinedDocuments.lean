import RunParams.Proofs.Lines
import RunParams.Proofs.LineOrder
import RunParams.Proofs.TreeReplay

/-!
# Joined documents

Two documents may be joined to one with a newline between them. What has been assigned is remembered within a document and not
beyond it, while the tree goes from one document to the next. So the joined document is read to its end exactly when the two are,
one after the other, and have no key in common; then both ways lead to the same tree.
-/

namespace RunParams

namespace Document

/-! ## Writes in turn -/

/-- Writes one behind the other succeed exactly when the first ones do, and the others do in the tree that those leave. -/
theorem writeEntries_append_eq_iff {overwrite : Bool} {t u : Tree} {first second : List (String × String)} :
    writeEntries overwrite t (first ++ second) = (u, none) ↔
      (writeEntries overwrite t first).2 = none ∧
        writeEntries overwrite (writeEntries overwrite t first).1 second = (u, none) := by
  by_cases ok : (writeEntries overwrite t first).2 = none
  · rw [writeEntries_append (Prod.ext rfl ok)]
    exact (and_iff_right ok).symm
  · refine iff_of_false (fun h => ok ?_) fun h => ok h.1
    induction first generalizing t with
    | nil => rfl
    | cons e first ih =>
      obtain ⟨path, value⟩ := e
      rw [List.cons_append] at h
      obtain ⟨okw, h⟩ := writeEntries_cons_eq_iff.mp h
      rw [writeEntries_cons _ okw] at ok ⊢
      exact ih ok h

/-! ## The joined text -/

/-- Two texts with a newline between them. -/
def joined (first second : String) : String :=
  first ++ "\n" ++ second

theorem lines_joined (first second : String) :
    Text.lines (joined first second).toList = Text.lines first.toList ++ Text.lines second.toList := by
  rw [joined, String.toList_append, String.toList_append, List.append_assoc]
  exact Text.lines_append_newline _ _

/-- The joined text assigns what the first text assigns, and then what the second does. -/
theorem assigns_joined_iff {first second : String} {entries : List (String × String)} :
    Assigns (joined first second) entries ↔
      ∃ es fs, Assigns first es ∧ Assigns second fs ∧ entries = es ++ fs := by
  rw [Assigns, lines_joined]
  exact linesAssign_append_iff

/-- A line of a text assigns a value to a path. -/
def AssignsTo (text path : String) : Prop :=
  ∃ line ∈ Text.lines text.toList, ∃ value, LineForm line (some (path, value))

/-- The paths that lines of a text assign are those of the values of the text. -/
theorem Assigns.assignsTo_iff {text : String} {entries : List (String × String)} (h : Assigns text entries) {path : String} :
    AssignsTo text path ↔ path ∈ entries.map (·.1) := by
  constructor
  · rintro ⟨line, hline, value, hform⟩
    obtain ⟨e, he, hmem⟩ := LinesAssign.exists_of_mem h hline
    obtain rfl := he.unique hform
    exact List.mem_map.mpr ⟨_, hmem _ rfl, rfl⟩
  · intro hpath
    obtain ⟨es, hforms, rfl⟩ := h
    obtain ⟨⟨p, value⟩, hmem, rfl⟩ := List.mem_map.mp hpath
    obtain ⟨i, hi, hes⟩ := List.mem_iff_getElem.mp (List.reduceOption_mem_iff.mp hmem)
    have hi' : i < (Text.lines text.toList).length := hforms.length_eq ▸ hi
    have hform := hforms.get hi' hi
    simp only [List.get_eq_getElem, hes] at hform
    exact ⟨_, List.getElem_mem hi', value, hform⟩

/-! ## Reading in turn -/

/-- The joined document is read to its end into a tree exactly when the first document is read to its end, and then the second one
into that tree, and no path is assigned in both. -/
theorem read_joined_eq_iff {t u : Tree} {first second source source₁ source₂ : String} {overwrite : Bool} :
    read t (joined first second) source overwrite = (u, none) ↔
      (read t first source₁ overwrite).2 = none ∧
        read (read t first source₁ overwrite).1 second source₂ overwrite = (u, none) ∧
          ∀ path, AssignsTo first path → ¬AssignsTo second path := by
  constructor
  · intro h
    obtain ⟨entries, hassigns, hnodup, hwrites⟩ := read_eq_iff.mp h
    obtain ⟨es, fs, hes, hfs, rfl⟩ := assigns_joined_iff.mp hassigns
    rw [List.map_append] at hnodup
    obtain ⟨hes', hfs', hdisjoint⟩ := List.nodup_append.mp hnodup
    obtain ⟨ok, hrest⟩ := writeEntries_append_eq_iff.mp hwrites
    have hfirst : read t first source₁ overwrite = ((writeEntries overwrite t es).1, none) :=
      read_eq_iff.mpr ⟨es, hes, hes', Prod.ext rfl ok⟩
    rw [hfirst]
    refine ⟨rfl, read_eq_iff.mpr ⟨fs, hfs, hfs', hrest⟩, fun path hone htwo => ?_⟩
    exact hdisjoint path (hes.assignsTo_iff.mp hone) path (hfs.assignsTo_iff.mp htwo) rfl
  · rintro ⟨hone, htwo, hdisjoint⟩
    obtain ⟨es, hes, hes', hfirst⟩ :=
      read_eq_iff.mp (Prod.ext rfl hone : read t first source₁ overwrite = ((read t first source₁ overwrite).1, none))
    obtain ⟨fs, hfs, hfs', hsecond⟩ := read_eq_iff.mp htwo
    refine read_eq_iff.mpr ⟨es ++ fs, assigns_joined_iff.mpr ⟨es, fs, hes, hfs, rfl⟩, ?_, ?_⟩
    · rw [List.map_append, List.nodup_append]
      refine ⟨hes', hfs', ?_⟩
      rintro path hp _ hq rfl
      exact hdisjoint path (hes.assignsTo_iff.mpr hp) (hfs.assignsTo_iff.mpr hq)
    · exact (writeEntries_append hfirst fs).trans hsecond

/-- Over any tree, and be values replaced or kept, two documents that are joined with a newline between them are read to the end
exactly when they are one after the other, and no line of the first assigns a value to the path of a line of the second. Then the
two ways make the same tree, with the same values and all names in the same order. -/
theorem read_joined (t : Tree) (first second source source₁ source₂ : String) (overwrite : Bool) :
    let whole := read t (joined first second) source overwrite
    let one := read t first source₁ overwrite
    let two := read one.1 second source₂ overwrite
    (whole.2 = none ↔ one.2 = none ∧ two.2 = none ∧ ∀ path, AssignsTo first path → ¬AssignsTo second path) ∧
      (whole.2 = none → whole.1 = two.1) := by
  intro whole one two
  have hread : ∀ u, whole = (u, none) ↔
      one.2 = none ∧ two = (u, none) ∧ ∀ path, AssignsTo first path → ¬AssignsTo second path := fun u => read_joined_eq_iff
  refine ⟨⟨fun ok => ?_, fun ⟨hone, htwo, hdisjoint⟩ => ?_⟩, fun ok => ?_⟩
  · obtain ⟨hone, htwo, hdisjoint⟩ := (hread whole.1).mp (Prod.ext rfl ok)
    exact ⟨hone, congrArg Prod.snd htwo, hdisjoint⟩
  · exact congrArg Prod.snd ((hread two.1).mpr ⟨hone, Prod.ext rfl htwo, hdisjoint⟩)
  · obtain ⟨-, htwo, -⟩ := (hread whole.1).mp (Prod.ext rfl ok)
    exact (congrArg Prod.fst htwo).symm

/-- A key that both documents have is refused only where they are joined, even if its value would not be written again. -/
example :
    (read .empty (joined "a = 1" "A = 2") "case.ini" false).2 = some ⟨"case.ini", 2, .duplicate "A"⟩ ∧
      (read (read .empty "a = 1" "case.ini" false).1 "A = 2" "case.ini" false).2 = none := by
  decide +kernel

end Document

end RunParams

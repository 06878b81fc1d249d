import RunParams.Proofs.ErrorLists
import RunParams.Similarity

/-!
# Errors of a check

A check goes on behind a file that fails, and lists the errors of all of them in the end. It does not get there if the bytes of a
file are no text: reading that file is a fault that ends the check, and nothing is said of the files that have failed. In the list
the errors stand as the console shows them.
-/

namespace RunParams.Tool

open Console

/-! ## What becomes of each file -/

/-- The tree after a file, and the message of its error if it fails. A file that cannot be read leaves the tree as it is. -/
def attempt (around : Surroundings) (overwrite : Bool) (tree : Tree) (file : String) : Tree × Option String :=
  match around.read file with
  | .error e => (tree, some e.message)
  | .ok text =>
    let result := Document.read tree text file overwrite
    (result.1, result.2.map (·.message))

/-- The messages of the files that fail, in order. Every file is attempted on the tree that those before it have left. -/
def failures (around : Surroundings) (overwrite : Bool) (tree : Tree) : List String → List String
  | [] => []
  | file :: files =>
    let result := attempt around overwrite tree file
    result.2.toList ++ failures around overwrite result.1 files

/-- Whether reading a file is a fault that the tool does not expect: its bytes are no text, or its path is no path. -/
def Faulty (around : Surroundings) (file : String) : Prop :=
  (∃ e, around.read file = .error (.undecodable e)) ∨ around.read file = .error .nullInPath

instance (around : Surroundings) (file : String) : Decidable (Faulty around file) :=
  match h : around.read file with
  | .error (.undecodable e) => .isTrue (.inl ⟨e, h⟩)
  | .error .nullInPath => .isTrue (.inr h)
  | .error (.unread ..) | .error (.unwritten ..) | .ok _ => .isFalse (by simp [Faulty, h])

/-- In a directory it is a fault to read a file whose bytes are no text. -/
theorem faulty_iff_of_directory {around : Surroundings} {d : Directory} (h : around.read = d.readText) {file : String} :
    Faulty around file ↔ file.contains '\x00' = true ∨
      ∃ bytes e, d.readBytes file = .ok bytes ∧ Text.Utf8.decode bytes = .error e := by
  rw [Faulty, h, Directory.readText]
  by_cases hnull : file.contains '\x00' = true
  · simp only [hnull, if_true, true_or, iff_true]
    exact .inr rfl
  · simp only [hnull, Bool.false_eq_true, if_false, false_or]
    cases hbytes : d.readBytes file with
    | error e => simp [Except.mapError, bind, Except.bind]
    | ok bytes =>
      cases hdecode : Text.Utf8.decode bytes with
      | error e => simp [Except.mapError, bind, Except.bind, fileText, hdecode, Except.map]
      | ok text => simp [Except.mapError, bind, Except.bind, fileText, hdecode, Except.map]

variable {around : Surroundings} {overwrite : Bool}

/-- A file is read as it is attempted, and the rest go on from there. -/
theorem readFiles_cons {file : String} (h : ¬ Faulty around file) (tree : Tree) (files : List String) :
    readFiles around overwrite tree (file :: files) =
      (readFiles around overwrite (attempt around overwrite tree file).1 files).map
        fun (t, errors) => (t, (attempt around overwrite tree file).2.toList ++ errors) := by
  rw [readFiles, attempt]
  cases hread : around.read file with
  | error e =>
    cases e with
    | undecodable e => exact absurd (.inl ⟨e, hread⟩) h
    | nullInPath => exact absurd (.inr hread) h
    | unread path e => rfl
    | unwritten path e => rfl
  | ok text =>
    dsimp only
    rcases hdoc : Document.read tree text file overwrite with ⟨tree', none | e⟩
    · dsimp only
      cases readFiles around overwrite tree' files <;> rfl
    · rfl

theorem readFiles_cons_of_faulty {file : String} (h : Faulty around file) (tree : Tree) (files : List String) :
    readFiles around overwrite tree (file :: files) = .error .crashed := by
  rw [readFiles]
  rcases h with ⟨e, he⟩ | he
  · rw [he]
    rfl
  · rw [he]
    rfl

/-- Without faults all files are read, and the messages are those of the files that fail. -/
theorem readFiles_eq_ok {files : List String} (h : ∀ file ∈ files, ¬ Faulty around file) (tree : Tree) :
    ∃ last, readFiles around overwrite tree files = .ok (last, failures around overwrite tree files) := by
  induction files generalizing tree with
  | nil => exact ⟨tree, rfl⟩
  | cons file files ih =>
    obtain ⟨hfile, hfiles⟩ := List.forall_mem_cons.mp h
    obtain ⟨last, hlast⟩ := ih hfiles (attempt around overwrite tree file).1
    exact ⟨last, by rw [readFiles_cons hfile, hlast]; rfl⟩

/-- A fault is not passed over, whatever stands before it. -/
theorem readFiles_eq_error {files : List String} (h : ∃ file ∈ files, Faulty around file) (tree : Tree) :
    readFiles around overwrite tree files = .error .crashed := by
  induction files generalizing tree with
  | nil => simp at h
  | cons file files ih =>
    by_cases hfile : Faulty around file
    · exact readFiles_cons_of_faulty hfile tree files
    · have hfiles : ∃ file ∈ files, Faulty around file := by simpa [hfile] using h
      rw [readFiles_cons hfile, ih hfiles]
      rfl

/-! ## What a check says of them -/

/-- The end of a check that reports messages: each is an entry of one list on the error output, and there is nothing else. -/
structure Reports (look : Look) (outcome : Outcome) (messages : List String) : Prop where
  code : outcome.ending.code = 1
  out : outcome.out = ""
  err : outcome.err = errorText look.red messages

/-- What is printed first on a console is all that has been written. -/
theorem say_empty {r : Renderer} {text shown : String} (h : r.print [.markup "", .markup text] = .ok shown) :
    say r .empty text = (⟨[], shown⟩, none) := by
  have hindented : Printer.empty.indented "" = "" := rfl
  rw [say, Printer.print, if_neg (by decide), hindented, h]
  exact congrArg (fun written => (Printer.mk [] written, none)) String.empty_append

variable {look : Look}

/-- What is shown for a fault is no list of errors, as it has one line only. -/
theorem crashText_ne_errorText (hr : around.console.Lawful look) {entries : List String} (h : entries ≠ []) :
    crashText around.console ≠ errorText look.red entries := by
  obtain ⟨line, hline, hprint⟩ := hr.crashNotice
  have htext : crashText around.console = line ++ "\n" := by rw [crashText, say_empty hprint]
  have hlist := two_le_count_errorText look.red h
  have hend : "\n".toList.count '\n' = 1 := by decide
  intro heq
  rw [← heq, htext, String.toList_append, List.count_append, List.count_eq_zero_of_not_mem hline, hend] at hlist
  omega

/-- A check of files that can all be read as text lists the errors of those that fail. -/
theorem check_of_not_faulty (hr : around.console.Lawful look) {files : List String}
    (h : failures around overwrite .empty files ≠ []) (hfiles : ∀ file ∈ files, ¬ Faulty around file) (yaml : Option String)
    (ini : Bool) :
    check around files overwrite yaml ini =
      ⟨.finished 1, "", errorText look.red ((failures around overwrite .empty files).map look.entry), none⟩ := by
  obtain ⟨last, hlast⟩ := readFiles_eq_ok hfiles .empty
  have hsay := say_empty (hr.errorList _ h)
  obtain ⟨message, messages, hmessages⟩ := List.exists_cons_of_ne_nil h
  rw [check, hlast]
  rw [hmessages] at hsay ⊢
  dsimp only
  rw [hsay]

/-- A fault ends a check, and only the fault is reported. -/
theorem check_of_faulty {files : List String} (hfiles : ∃ file ∈ files, Faulty around file) (yaml : Option String) (ini : Bool) :
    check around files overwrite yaml ini = ⟨.crashed, "", crashText around.console, none⟩ := by
  rw [check, readFiles_eq_error hfiles]
  rfl

/-- Where files fail, a check ends with the list of all their errors as the console shows them, unless reading one of the files is
a fault. So it reports the messages themselves exactly when there is no such file, and the console shows every message as it is. -/
theorem check_of_failures (hr : around.console.Lawful look) {files : List String}
    (h : failures around overwrite .empty files ≠ []) (yaml : Option String) (ini : Bool) :
    ((∀ file ∈ files, ¬ Faulty around file) → check around files overwrite yaml ini =
      ⟨.finished 1, "", errorText look.red ((failures around overwrite .empty files).map look.entry), none⟩) ∧
    ((∃ file ∈ files, Faulty around file) →
      check around files overwrite yaml ini = ⟨.crashed, "", crashText around.console, none⟩) ∧
    (Reports look (check around files overwrite yaml ini) (failures around overwrite .empty files) ↔
      (∀ file ∈ files, ¬ Faulty around file) ∧
        ∀ message ∈ failures around overwrite .empty files, look.entry message = message) := by
  refine ⟨fun hfiles => check_of_not_faulty hr h hfiles yaml ini, fun hfiles => check_of_faulty hfiles yaml ini, ?_⟩
  constructor
  · intro hreports
    have herr := hreports.err
    have hfiles : ∀ file ∈ files, ¬ Faulty around file := by
      intro file hmem hfile
      rw [check_of_faulty ⟨file, hmem, hfile⟩] at herr
      exact crashText_ne_errorText hr h herr
    rw [check_of_not_faulty hr h hfiles] at herr
    exact ⟨hfiles, (errorText_map_eq_iff hr.lineEnds _).mp herr⟩
  · rintro ⟨hfiles, hentries⟩
    rw [check_of_not_faulty hr h hfiles]
    exact ⟨rfl, rfl, (errorText_map_eq_iff hr.lineEnds _).mpr hentries⟩

/-- Surroundings of nothing but files with these bytes, and the console that reads markup. -/
def holding (files : List (String × List UInt8)) : Surroundings where
  read path :=
    match files.lookup path with
    | some bytes => (fileText bytes).mapError .undecodable
    | none => .error (.unread path .notFound)
  write _ := .ok ()
  console := markup numberPictures
  score := Similarity.scorer

/-- How a check shows errors among such files. -/
def plainLook : Look :=
  ⟨fun t => t, entryText numberPictures⟩

/-- The errors of a file that is missing and of one that fails in its first line are shown as they are. That of one that fails in
its hundredth line is shown with a picture in place of the number. -/
theorem check_of_failures_of_missing_and_malformed :
    let around := holding [("good.ini", [120, 61, 49, 10]), ("bad.ini", [97, 10]), ("long.ini", List.replicate 99 10 ++ [97])]
    let files := ["gone.ini", "good.ini", "bad.ini"]
    let messages := ["Failed to read from \"gone.ini\": [Errno 2] No such file or directory: 'gone.ini'",
      "bad.ini:1: Syntax error, expecting 'key=value'"]
    let long := "long.ini:100: Syntax error, expecting 'key=value'"
    failures around false .empty files = messages ∧ Reports plainLook (check around files false none false) messages ∧
      failures around false .empty ["long.ini"] = [long] ∧
      (check around ["long.ini"] false none false).err =
        errorText plainLook.red ["long.ini💯 Syntax error, expecting 'key=value'"] ∧
      ¬ Reports plainLook (check around ["long.ini"] false none false) [long] := by
  intro around files messages long
  have hr : around.console.Lawful plainLook := markup_lawful numberPictures_onLine
  have hmessages : failures around false .empty files = messages := by decide +kernel
  have hfiles : ∀ file ∈ files, ¬ Faulty around file := by decide +kernel
  have hentries : ∀ message ∈ messages, plainLook.entry message = message := by decide +kernel
  have hlong : failures around false .empty ["long.ini"] = [long] := by decide +kernel
  have hlongFile : ∀ file ∈ ["long.ini"], ¬ Faulty around file := by decide +kernel
  have hlongEntry : plainLook.entry long = "long.ini💯 Syntax error, expecting 'key=value'" := by decide +kernel
  obtain ⟨-, -, hreports⟩ := @check_of_failures around false plainLook hr files (by simp [hmessages, messages]) none false
  obtain ⟨hlongCheck, -, hlongReports⟩ :=
    @check_of_failures around false plainLook hr ["long.ini"] (by simp [hlong]) none false
  rw [hmessages] at hreports
  rw [hlong] at hlongReports
  refine ⟨hmessages, hreports.mpr ⟨hfiles, hentries⟩, hlong, ?_, fun h => ?_⟩
  · rw [hlongCheck hlongFile, hlong, List.map_singleton, hlongEntry]
  · have hsame := (hlongReports.mp h).2 long List.mem_cons_self
    rw [hlongEntry] at hsame
    exact absurd hsame (by decide +kernel)

/-- A file that is no text takes the errors of the others with it, and its own. -/
theorem check_of_undecodable :
    let around := holding [("bad.ini", [255]), ("worse.ini", [97])]
    let files := ["bad.ini", "worse.ini"]
    let messages := ["'utf-8' codec can't decode byte 0xff in position 0: invalid start byte",
      "worse.ini:1: Syntax error, expecting 'key=value'"]
    failures around false .empty files = messages ∧
      (check around files false none false).err = " Error: An unexpected exception occurred.\n" ∧
      ¬ Reports plainLook (check around files false none false) messages := by
  intro around files messages
  have hr : around.console.Lawful plainLook := markup_lawful numberPictures_onLine
  have hmessages : failures around false .empty files = messages := by decide +kernel
  have hfaulty : Faulty around "bad.ini" := by decide +kernel
  have hcrash : crashText around.console = " Error: An unexpected exception occurred.\n" := by decide +kernel
  have hcheck : check around files false none false = ⟨.crashed, "", crashText around.console, none⟩ :=
    check_of_faulty ⟨"bad.ini", List.mem_cons_self, hfaulty⟩ none false
  have herr : (check around files false none false).err = crashText around.console := by rw [hcheck]
  refine ⟨hmessages, herr.trans hcrash, fun hreports => ?_⟩
  exact crashText_ne_errorText hr (by simp [messages]) (herr.symm.trans hreports.err)

end RunParams.Tool

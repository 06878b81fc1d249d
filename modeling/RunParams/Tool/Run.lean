import RunParams.Console.Listing
import RunParams.Console.Printer
import RunParams.Document
import RunParams.Files
import RunParams.Report
import RunParams.Tool.Request

/-!
# Running the tool

The commands of the tool as functions of the files that they read. Checking reads all documents into one tree, reports every
file that fails, and otherwise lists the values and the keys that look like misspellings of one another.
-/

namespace RunParams.Tool

open Console

/-- How a run of the tool ends: with an exit code of its own, without a request, or on a fault that no command expects. -/
inductive Ending
  | finished (code : Int)
  | refused (reason : NoRequest)
  | crashed
  deriving DecidableEq

/-- The exit code of an ending. -/
def Ending.code : Ending → Int
  | .finished code => code
  | .refused (.error _) => 2
  | .refused .help => 0
  | .refused .nothing => -1
  | .crashed => 1

/-- What a run has written to the two outputs, and to a file in a structured form. -/
structure Outcome where
  ending : Ending
  out : String
  err : String
  written : Option (String × Snapshot)

/-- Where a command stops before its end: on an error to report, or on a fault that it does not expect. -/
inductive Stop
  | failed (message : String)
  | crashed

/-- What is around the tool: the text of each file, whether a file can be written, the console, and the scorer of names. -/
structure Surroundings where
  read : String → Except FileError String
  write : String → Except FileError Unit
  console : Renderer
  score : Suggestion.Scorer

/-- Prints marked-up text as an object, behind the indentation and a space. -/
def say (r : Renderer) (p : Printer) (text : String) : Printer × Option PrinterError :=
  p.print r "" [.markup text] false

/-- Prints marked-up texts in order up to the first that fails. -/
def sayAll (r : Renderer) (p : Printer) : List String → Printer × Option PrinterError
  | [] => (p, none)
  | text :: more =>
    match say r p text with
    | (p, some e) => (p, some e)
    | (p, none) => sayAll r p more

/-- What the error output shows for an error that ends a command. -/
def failureText (r : Renderer) (message : String) : String :=
  (say r .empty s!"[bold red]Error[/bold red]: {r.escape message}\n").1.written

/-- What the error output is told last of an unexpected fault. -/
def crashNotice : String :=
  "[bold red]Error[/bold red]: An unexpected exception occurred."

/-- What the error output shows last for an unexpected fault. -/
def crashText (r : Renderer) : String :=
  (say r .empty crashNotice).1.written

/-- Ends a run that was stopped. -/
def stopped (r : Renderer) (p : Printer) : Stop → Outcome
  | .failed message => ⟨.finished 1, p.written, failureText r message, none⟩
  | .crashed => ⟨.crashed, p.written, crashText r, none⟩

/-! ### Checking documents -/

/-- How a file error ends a command: what the system refuses is reported, anything else is not expected. -/
def Stop.ofFileError (e : FileError) : Stop :=
  match e with
  | .unread .. | .unwritten .. => .failed e.message
  | .undecodable _ | .nullInPath => .crashed

/-- Reads documents into a tree in order: the tree, and the message of each that failed. -/
def readFiles (around : Surroundings) (overwrite : Bool) (tree : Tree) :
    List String → Except Stop (Tree × List String)
  | [] => .ok (tree, [])
  | file :: files =>
    match around.read file with
    | .error e =>
      match Stop.ofFileError e with
      | .crashed => .error .crashed
      | .failed message => (readFiles around overwrite tree files).map fun (t, errors) => (t, message :: errors)
    | .ok text =>
      match Document.read tree text file overwrite with
      | (tree, none) => readFiles around overwrite tree files
      | (tree, some e) =>
        (readFiles around overwrite tree files).map fun (t, errors) => (t, e.message :: errors)

/-- The least score of keys that look like misspellings of one another. -/
def misspellingScore : Float := 90

/-- A note on each key that others look like. -/
def misspellings (around : Surroundings) (keys : List String) : List String :=
  keys.filterMap fun key =>
    match Suggestion.similar around.score misspellingScore Suggestion.defaultCount key (keys.filter (· != key)) with
    | [] => none
    | similar => some s!"{around.console.escape key}: {around.console.escape (Suggestion.question similar)}"

/-- The values of a tree as text, grouped into sections if `ini` is set. -/
def listing (tree : Tree) (ini : Bool) : String :=
  if ini then tree.report "" else Report.unusedListing tree tree.keys

/-- Prints notes, indented below a heading. -/
def sayNotes (r : Renderer) (p : Printer) (notes : List String) : Printer × Option PrinterError :=
  if notes.isEmpty then (p, none)
  else
    match say r p "[yellow]Possibly misspelled keys:[/yellow]" with
    | (p, some e) => (p, some e)
    | (p, none) =>
      let (p, error) := sayAll r (p.indent Printer.defaultIndent) notes
      ((p.unindent 1).1, error)

/-- The line that ends a check. -/
def checkedText (r : Renderer) (files : List String) (count : Nat) : String :=
  let names := sentence none nothingText (files.map fun f => styled (some "magenta") (r.escape f))
  s!"[bold green]✓[/bold green] Checked {names}: {count} parameter(s)."

/-- The last step of a check. -/
def conclude (r : Renderer) (p : Printer) (files : List String) (count : Nat) (written : Option (String × Snapshot)) :
    Outcome :=
  match say r p (checkedText r files count) with
  | (p, some _) => { stopped r p .crashed with written }
  | (p, none) => ⟨.finished 0, p.written, "", written⟩

/-- Checks documents, and writes their values to a file if one is named. -/
def check (around : Surroundings) (files : List String) (overwrite : Bool) (yaml : Option String) (ini : Bool) : Outcome :=
  let r := around.console
  match readFiles around overwrite .empty files with
  | .error stop => stopped r .empty stop
  | .ok (tree, []) =>
    let p := Printer.empty.write (listing tree ini)
    match sayNotes r p (misspellings around tree.keys) with
    | (p, some _) => stopped r p .crashed
    | (p, none) =>
      match yaml with
      | none => conclude r p files tree.size none
      | some path =>
        match around.write path with
        | .error e => stopped r p (.ofFileError e)
        | .ok () => conclude r p files tree.size (some (path, (Context.mk .empty tree).snapshot))
  | .ok (_, errors) =>
    match say r .empty (errorList true (errors.map r.escape)) with
    | (_, some _) => stopped r .empty .crashed
    | (p, none) => ⟨.finished 1, "", p.written, none⟩

/-! ### Converting spellings -/

/-- Writes the converted form of each text on a line, up to the first that cannot be converted. -/
def convert (r : Renderer) (f : String → Except NameError String) (p : Printer) : List String → Outcome
  | [] => ⟨.finished 0, p.written, "", none⟩
  | text :: texts =>
    match f text with
    | .error e => stopped r p (.failed (e.message ""))
    | .ok converted => convert r f (p.write (converted ++ "\n")) texts

/-- The flag of the parameter that a key names. -/
def flagOfKey (key : String) : Except NameError String :=
  (Spelling.canonicalize true key).map Spelling.toFlag

/-- The name of the parameter that a flag, perhaps with a value, sets. -/
def nameOfFlag (flag : String) : Except NameError String :=
  Spelling.ofFlag (String.ofList (flag.toList.takeWhile (· != '=')))

/-- Does what is requested. -/
def perform (around : Surroundings) : Request → Outcome
  | .check files overwrite yaml ini => check around files overwrite yaml ini
  | .flag names => convert around.console flagOfKey .empty names
  | .name flags => convert around.console nameOfFlag .empty flags

/-- The help that is shown where there is no request. -/
def helpText : String :=
  s!"usage: {program} [-h] \x7bcheck,flag,name\x7d ...\n"

/-- Runs the tool with the given arguments. -/
def run (around : Surroundings) (arguments : List String) : Outcome :=
  match request arguments with
  | .ok r => perform around r
  | .error (.error e) => ⟨.refused (.error e), "", e.message ++ "\n", none⟩
  | .error reason => ⟨.refused reason, helpText, "", none⟩

end RunParams.Tool

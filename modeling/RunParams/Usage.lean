import RunParams.Context
import RunParams.Wrap

/-!
# Usage messages

A usage message lists the parameters of a context with their flags, what they are for and their defaults, one to a line that is
wrapped at the width of the terminal.
-/

namespace RunParams.Usage

/-- The column at which the description of a parameter starts. -/
def descriptionColumn : Nat := 50

/-- The indentation of a description that goes on. -/
def descriptionIndent : Int := 52

/-- The indentation of a preamble that goes on. -/
def preambleIndent : Int := 2

/-- The width of output that does not go to a terminal. -/
def unlimitedWidth : Nat := 10000

/-- The width of the text written to standard output: that of a terminal, at least eighty columns. -/
def terminalWidth (isTerminal : Bool) (columns : Int) : Int :=
  if isTerminal then max 80 columns else unlimitedWidth

/-- A text with spaces behind it up to a width. -/
def padRight (width : Nat) (s : String) : String :=
  s ++ String.ofList (List.replicate (width - s.length) ' ')

/-- The line of a parameter before it is wrapped. A description that does not end in a full stop is given one, unless the
parameter has no value and so no default to show. -/
def entry (flag : String) (r : Record) : String :=
  match r.kind with
  | .flag => padRight descriptionColumn s!"    {flag}  " ++ r.usage
  | kind =>
    let described := padRight descriptionColumn s!"    {flag}={kind.placeholder}  " ++ r.usage
    let stop := if described.toList.getLast? = some '.' then "" else "."
    s!"{described}{stop} Default: {r.shownDefault}"

/-- The line of a parameter under a given flag. -/
def lineFor (flag : String) (r : Record) (width : Int) : String :=
  Wrap.breakLines (entry flag r) descriptionIndent width

/-- The line of a parameter. -/
def line (r : Record) (width : Int) : String :=
  lineFor (Spelling.toFlag r.name) r width

/-- The options that print usage messages. -/
def helpEntries : List (String × Record) :=
  [("-h,--help", ⟨"Help", none, "Print this help message and exit", "", false⟩),
   ("--help-all", ⟨"HelpAll", none, "Print all parameters, including obsolete, hidden and deprecated ones.", "", false⟩)]

/-- The usage message of a context: an error if there is one, the preamble, the options for help if there is a preamble, and a
line per parameter. Hidden parameters are listed only if `showAll` is set. -/
def message (ctx : Context) (preamble error : String) (showAll : Bool) (width : Int) : String :=
  let failure := if error.isEmpty then "" else error ++ "\n\n"
  let help := if preamble.isEmpty then [] else helpEntries.map fun (flag, r) => lineFor flag r width
  let listed := ctx.registry.sortedRecords.filter fun r => showAll || !r.hidden
  let entries := (help ++ listed.map (line · width)).map (· ++ "\n")
  failure ++ Wrap.breakLines preamble preambleIndent width ++ "\nRecognized options:\n" ++ String.join entries

end RunParams.Usage

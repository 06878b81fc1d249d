import RunParams.Tool.Options

/-!
# Requests to the tool

The tool has three commands: one checks parameter documents, two convert between names and flags. The flags to convert look like
options, so the command for them takes every argument behind its name.
-/

namespace RunParams.Tool

/-- What the tool is asked to do. -/
inductive Request
  | check (files : List String) (overwrite : Bool) (yaml : Option String) (ini : Bool)
  | flag (names : List String)
  | name (flags : List String)
  deriving DecidableEq

/-- Why there is no request: the arguments are wrong, they ask for help, or there are none. -/
inductive NoRequest
  | error (e : UsageError)
  | help
  | nothing
  deriving DecidableEq

/-- The options of the commands. -/
inductive Setting
  | help
  | overwrite
  | yaml
  | ini
  deriving DecidableEq

/-- The name by which the tool is called. -/
def program : String := "python -m paramsys"

/-- The commands. -/
def commands : List String := ["check", "flag", "name"]

/-- The option that every command has. -/
def helpFlag : Flag Setting := ⟨.help, "-h", "--help", false⟩

/-- The arguments of the tool itself. -/
def topGrammar : Grammar Setting :=
  ⟨program, [helpFlag], (· == .help), true, .command, "command"⟩

/-- The arguments of a command. -/
def commandGrammar (command : String) (flags : List (Flag Setting)) (abbreviations : Bool) (operands : Operands)
    (operandName : String) : Grammar Setting :=
  ⟨program ++ " " ++ command, helpFlag :: flags, (· == .help), abbreviations, operands, operandName⟩

/-- The arguments of the command that checks documents. -/
def checkGrammar : Grammar Setting :=
  commandGrammar "check"
    [⟨.overwrite, "-o", "--overwrite", false⟩, ⟨.yaml, "-y", "--yaml", true⟩, ⟨.ini, "-i", "--ini", false⟩]
    true .oneOrMore "FILE"

/-- The arguments of the command that converts names. -/
def flagGrammar : Grammar Setting :=
  commandGrammar "flag" [] true .oneOrMore "NAME"

/-- The arguments of the command that converts flags. -/
def nameGrammar : Grammar Setting :=
  commandGrammar "name" [] false .zeroOrMore "FLAG"

/-- Whether an option was given. -/
def Reading.has (r : Reading Setting) (s : Setting) : Bool :=
  r.settings.any (·.1 == s)

/-- The value given last for an option. -/
def Reading.valueOf? (r : Reading Setting) (s : Setting) : Option String :=
  (r.settings.reverse.find? (·.1 == s)).bind (·.2)

/-- Reads the arguments of the tool or of a command. -/
def readWith (g : Grammar Setting) (arguments : List String) : Except NoRequest (Reading Setting) :=
  (g.read arguments).mapError fun
    | .help => .help
    | .error e => .error e

/-- Refuses arguments that were left over. -/
def refuseExtras (extras : List String) : Except NoRequest Unit :=
  if extras.isEmpty then .ok () else .error (.error (.unrecognized program extras))

/-- Reads the arguments of the tool as a request. -/
def request (arguments : List String) : Except NoRequest Request := do
  let top ← readWith topGrammar arguments
  match top.operands with
  | none | some [] =>
    refuseExtras top.extras
    throw .nothing
  | some (command :: rest) =>
    if command = "check" then
      let r ← readWith checkGrammar rest
      refuseExtras (top.extras ++ r.extras)
      return .check (r.operands.getD []) (r.has .overwrite) (r.valueOf? .yaml) (r.has .ini)
    else if command = "flag" then
      let r ← readWith flagGrammar rest
      refuseExtras (top.extras ++ r.extras)
      return .flag (r.operands.getD [])
    else if command = "name" then
      let _ ← readWith nameGrammar rest
      let flags := ((arguments.dropWhile (· != "name")).drop 1).filter (· != "--")
      if flags.isEmpty then throw (.error (.missingOperand nameGrammar.program nameGrammar.operandName))
      return .name flags
    else throw (.error (.badChoice program "command" command commands))

end RunParams.Tool

import RunParams.Text.Letter
import RunParams.Token
import RunParams.Usage

/-!
# Command lines

Options `--key=value`, or `-x=value` for names of one letter, set run-time values. Every other argument is handed to a
positional handler, which says how many arguments it takes. The first argument that is refused ends the reading.
-/

namespace RunParams

/-- What a positional handler is told: the names seen so far, all arguments, the index of the one in question, and how many
times the handler has been called before. -/
structure PositionalCall where
  seen : List String
  argv : List String
  index : Nat
  handled : Nat

/-- What a positional handler answers: its next state, the values to write, names to count as seen, the number of arguments that
it takes, and why, if it takes none. -/
structure PositionalReply (σ : Type) where
  state : σ
  writes : List (String × String)
  seen : List String
  count : Int
  reason : String

/-- A positional handler, which may keep a state from call to call. -/
abbrev PositionalHandler (σ : Type) := σ → PositionalCall → PositionalReply σ

/-- Why an argument is refused with a message. -/
inductive Refusal
  | positional (reason : String)
  | noLetter (position : Nat) (argument : String)
  | noValue (name argument : String)
  deriving DecidableEq

/-- Why reading a command line fails with an error. -/
inductive ArgumentError
  | badKey (error : NameError)
  | duplicate (name : String)
  | tree (error : TreeError)
  deriving DecidableEq

/-- The wording for an argument that no one takes. -/
def illegalArgument (argument : String) : String :=
  s!"Illegal parameter \"{argument}\"."

/-- The wording of a refusal. -/
def Refusal.message : Refusal → String
  | .positional reason => reason
  | .noLetter position argument =>
    s!"Parameter name of argument {position} ('{argument}') is invalid because it does not start with a letter."
  | .noValue name argument => s!"Parameter '{name}' is missing a value. Please use {argument}=value."

/-- The wording of an argument error. -/
def ArgumentError.message : ArgumentError → String
  | .badKey e => e.message ""
  | .duplicate name => s!"Parameter '{name}' specified multiple times as a command line parameter"
  | .tree e => e.message

/-- How the reading of a command line ends. -/
inductive Verdict
  | accepted
  | refused (refusal : Refusal)
  | failed (error : ArgumentError)
  deriving DecidableEq

/-- How far a command line has been read: the tree, the names seen, without repetition, and the state of the handler. -/
structure ArgumentState (σ : Type) where
  tree : Tree
  seen : List String
  handler : σ

namespace CommandLine

/-- The handler that refuses every argument. -/
def noPositionals : PositionalHandler Unit := fun _ call =>
  ⟨(), [], [], 0, illegalArgument ((call.argv[call.index]?).getD "")⟩

/-- Whether an argument is an option. -/
def isOption (argument : String) : Bool :=
  match argument.toList with
  | '-' :: '-' :: _ => true
  | '-' :: c :: '=' :: _ => Text.isLetter c
  | _ => false

/-- An option without its dashes. -/
def optionBody (argument : String) : List Char :=
  match argument.toList with
  | '-' :: '-' :: s => s
  | s => s.drop 1

/-- Adds a name to those seen. -/
def addSeen (seen : List String) (name : String) : List String :=
  if seen.contains name then seen else seen ++ [name]

/-- Reads an option, which stands in the given position, counted from one. -/
def readOption {σ : Type} (st : ArgumentState σ) (position : Nat) (argument : String) : ArgumentState σ × Verdict :=
  let body := optionBody argument
  if !(body.head?.any Text.isLetter) then (st, .refused (.noLetter position argument))
  else
    let (key, rest) := Token.key body
    match Spelling.canonicalize true (String.ofList key) with
    | .error e => (st, .failed (.badKey e))
    | .ok name =>
      if st.seen.contains name then (st, .failed (.duplicate name))
      else
        let st := { st with seen := addSeen st.seen name }
        match rest with
        | '=' :: value =>
          match st.tree.set name (String.ofList value) with
          | (tree, none) => ({ st with tree }, .accepted)
          | (tree, some e) => ({ st with tree }, .failed (.tree e))
        | _ => (st, .refused (.noValue name argument))

/-- Writes values in order up to the first that cannot be written. -/
def writeAll (tree : Tree) : List (String × String) → Tree × Option TreeError
  | [] => (tree, none)
  | (path, value) :: more =>
    match tree.set path value with
    | (tree, some e) => (tree, some e)
    | (tree, none) => writeAll tree more

/-- Hands an argument to the handler: the state afterwards, the verdict, and how many arguments were taken. -/
def readPositional {σ : Type} (handler : PositionalHandler σ) (st : ArgumentState σ) (call : PositionalCall)
    (argument : String) : ArgumentState σ × Verdict × Nat :=
  let reply := handler st.handler call
  match writeAll st.tree reply.writes with
  | (tree, some e) => ({ st with tree, handler := reply.state }, .failed (.tree e), 0)
  | (tree, none) =>
    let st := ⟨tree, reply.seen.foldl addSeen st.seen, reply.state⟩
    if reply.count < 1 then
      let reason := if reply.reason.isEmpty then illegalArgument argument else reply.reason
      (st, .refused (.positional reason), 0)
    else (st, .accepted, reply.count.toNat)

/-- Reads the arguments from `index` on. The first `taken` of them belong to a positional argument before, and `handled` counts
those. -/
def readFrom {σ : Type} (handler : PositionalHandler σ) (argv : List String) (index taken handled : Nat)
    (st : ArgumentState σ) : List String → ArgumentState σ × Verdict
  | [] => (st, .accepted)
  | argument :: rest =>
    match taken with
    | more + 1 => readFrom handler argv (index + 1) more handled st rest
    | 0 =>
      if isOption argument then
        match readOption st (index + 1) argument with
        | (st, .accepted) => readFrom handler argv (index + 1) 0 handled st rest
        | ended => ended
      else
        match readPositional handler st ⟨st.seen, argv, index, handled⟩ argument with
        | (st, .accepted, count) => readFrom handler argv (index + 1) (count - 1) (handled + 1) st rest
        | (st, verdict, _) => (st, verdict)

/-- Reads a command line into a tree. -/
def read {σ : Type} (handler : PositionalHandler σ) (state : σ) (tree : Tree) (argv : List String) :
    ArgumentState σ × Verdict :=
  readFrom handler argv 0 0 0 ⟨tree, [], state⟩ argv

/-- Whether the arguments ask for the usage message, and then whether for all of it. -/
def helpRequest? (argv : List String) : Option Bool :=
  argv.findSome? fun argument =>
    if argument = "-h" ∨ argument = "--help" then some false
    else if argument = "--help-all" then some true
    else none

/-- What is returned when the usage message was asked for. -/
def helpCalled : String := "Help called"

end CommandLine

/-- What reading a command line does to a context: the message returned, empty if all is well, or the error; and what is written
to the two outputs. -/
structure CommandLineResult (σ : Type) where
  context : Context
  handler : σ
  answer : Except ArgumentError String
  out : String
  err : String

/-- Reads a command line into a context. With a preamble, the options for help print the usage message, and so do refusals and
duplicates, the latter two to the error output. -/
def Context.readCommandLine {σ : Type} (ctx : Context) (argv : List String) (preamble : String) (width : Int)
    (handler : PositionalHandler σ) (state : σ) : CommandLineResult σ :=
  match if preamble.isEmpty then none else CommandLine.helpRequest? argv with
  | some showAll =>
    ⟨ctx, state, .ok CommandLine.helpCalled, Usage.message ctx preamble "" showAll width, ""⟩
  | none =>
    let (st, verdict) := CommandLine.read handler state ctx.tree argv
    let ctx := { ctx with tree := st.tree }
    let usage (error : String) := if preamble.isEmpty then "" else Usage.message ctx preamble error false width
    match verdict with
    | .accepted => ⟨ctx, st.handler, .ok "", "", ""⟩
    | .refused refusal => ⟨ctx, st.handler, .ok refusal.message, "", usage refusal.message⟩
    | .failed (.duplicate name) =>
      let error := ArgumentError.duplicate name
      ⟨ctx, st.handler, .error error, "", usage error.message⟩
    | .failed error => ⟨ctx, st.handler, .error error, "", ""⟩

end RunParams

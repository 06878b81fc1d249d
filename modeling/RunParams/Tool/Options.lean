import RunParams.Text.DecimalDigit
import RunParams.Text.Literal

/-!
# Options of a command

The arguments of a command are options and operands. Short options may be joined, long ones shortened to a unique beginning, and
either may be given a value behind an equals sign; two dashes end the options. The operands of a command are one unbroken run of
arguments, and whatever is left over is returned for someone else to judge.
-/

namespace RunParams.Tool

/-- An option: what it means, its two spellings, and whether it takes a value. -/
structure Flag (ι : Type) where
  meaning : ι
  short : String
  long : String
  takesValue : Bool

/-- How many operands a command takes: at least one, any number, or one that takes all that follows it along. -/
inductive Operands
  | oneOrMore
  | zeroOrMore
  | command
  deriving DecidableEq

/-- The arguments that a program understands. An option that `isHelp` ends the reading. -/
structure Grammar (ι : Type) where
  program : String
  flags : List (Flag ι)
  isHelp : ι → Bool
  abbreviations : Bool
  operands : Operands
  operandName : String

/-- What is wrong with the arguments of a program. -/
inductive UsageError
  | ambiguous (program argument : String) (candidates : List String)
  | ignoredValue (program flag value : String)
  | missingValue (program flag : String)
  | missingOperand (program operand : String)
  | badChoice (program operand value : String) (choices : List String)
  | unrecognized (program : String) (arguments : List String)
  deriving DecidableEq

/-- The wording of a usage error. -/
def UsageError.message : UsageError → String
  | .ambiguous program argument candidates =>
    let spellings := ", ".intercalate candidates
    s!"{program}: error: ambiguous option: {argument} could match {spellings}"
  | .ignoredValue program flag value =>
    s!"{program}: error: argument {flag}: ignored explicit argument {Text.literal value}"
  | .missingValue program flag => s!"{program}: error: argument {flag}: expected one argument"
  | .missingOperand program operand => s!"{program}: error: the following arguments are required: {operand}"
  | .badChoice program operand value choices =>
    let known := ", ".intercalate (choices.map Text.literal)
    s!"{program}: error: argument {operand}: invalid choice: {Text.literal value} (choose from {known})"
  | .unrecognized program arguments =>
    let list := " ".intercalate arguments
    s!"{program}: error: unrecognized arguments: {list}"

/-- Why the reading of arguments ends early. -/
inductive Halt
  | help
  | error (e : UsageError)
  deriving DecidableEq

/-- An argument that looks like an option: the option, if there is such a one, under a short or a long spelling, and the value
that is joined to it, with a separator or without. -/
structure Spelled (ι : Type) where
  flag : Option (Flag ι)
  short : Bool
  value : Option (Bool × List Char)

/-- What an argument is taken for. -/
inductive Shape (ι : Type)
  | operand
  | dashes
  | option (spelled : Spelled ι)

/-- What has been read: the options with their values, the operands once they have been found, and what was left over. -/
structure Reading (ι : Type) where
  settings : List (ι × Option String)
  operands : Option (List String)
  extras : List String

namespace Grammar

variable {ι : Type}

/-- The name of an option in messages. -/
def flagName (f : Flag ι) : String :=
  f.short ++ "/" ++ f.long

/-- The option with exactly the given spelling. -/
def withSpelling? (g : Grammar ι) (spelling : List Char) : Option (Flag ι × Bool) :=
  g.flags.findSome? fun f =>
    if f.short.toList = spelling then some (f, true)
    else if f.long.toList = spelling then some (f, false)
    else none

/-- A text up to its first equals sign, and what follows that. -/
def splitEquals (s : List Char) : List Char × Option (List Char) :=
  match s.dropWhile (· != '=') with
  | '=' :: value => (s.takeWhile (· != '='), some value)
  | _ => (s, none)

/-- The options that an argument may be a short form of, with the spelling meant. -/
def candidates (g : Grammar ι) (argument : List Char) : List (String × Spelled ι) :=
  match argument with
  | '-' :: '-' :: _ =>
    let (start, value) := splitEquals argument
    if g.abbreviations then
      (g.flags.filter fun f => start.isPrefixOf f.long.toList).map fun f =>
        (f.long, ⟨some f, false, value.map (true, ·)⟩)
    else []
  | '-' :: c :: value =>
    (g.flags.filter fun f => f.short.toList == ['-', c]).map fun f => (f.short, ⟨some f, true, some (false, value)⟩)
  | _ => []

/-- Whether an argument is a negative number, which is an operand. -/
def isNegativeNumber : List Char → Bool
  | '-' :: s =>
    let isDigit (c : Char) : Bool := (Text.digitValue? c).isSome
    let whole := s.takeWhile isDigit
    match s.dropWhile isDigit with
    | [] => whole != []
    | '.' :: fraction => fraction != [] && fraction.all isDigit
    | _ => false
  | _ => false

/-- What an argument before the two dashes is taken for. -/
def shape (g : Grammar ι) (argument : String) : Except UsageError (Shape ι) :=
  let s := argument.toList
  if s.head? ≠ some '-' then .ok .operand
  else match g.withSpelling? s with
    | some (f, short) => .ok (.option ⟨some f, short, none⟩)
    | none =>
      if s.length = 1 then .ok .operand
      else match splitEquals s with
        | (start, some value) =>
          match g.withSpelling? start with
          | some (f, short) => .ok (.option ⟨some f, short, some (true, value)⟩)
          | none => other s
        | (_, none) => other s
where
  /-- What an argument is taken for that spells no option in full. -/
  other (s : List Char) : Except UsageError (Shape ι) :=
    match g.candidates s with
    | [(_, spelled)] => .ok (.option spelled)
    | [] =>
      if isNegativeNumber s || s.contains ' ' then .ok .operand else .ok (.option ⟨none, false, none⟩)
    | several => .error (.ambiguous g.program argument (several.map (·.1)))

/-- What each argument is taken for. -/
def shapes (g : Grammar ι) : List String → Except UsageError (List (String × Shape ι))
  | [] => .ok []
  | argument :: rest =>
    if argument = "--" then .ok ((argument, .dashes) :: rest.map (·, .operand))
    else do
      let first ← g.shape argument
      return (argument, first) :: (← g.shapes rest)

/-- The options that are joined in one argument, behind a first one with the given joined value. The last of them may take what
is left, or the next argument, as its value; an unknown one is left over with all that follows it. -/
structure Joined (ι : Type) where
  settings : List (ι × Option String)
  extras : List String
  /-- The last option, if it still needs the next argument for its value. -/
  awaits : Option (Flag ι)

/-- Takes apart an option with a joined value. -/
def joined (g : Grammar ι) (f : Flag ι) (short separated : Bool) (value : List Char) : Except UsageError (Joined ι) :=
  let refused : Except UsageError (Joined ι) :=
    .error (.ignoredValue g.program (flagName f) (String.ofList value))
  if f.takesValue then .ok ⟨[(f.meaning, some (String.ofList value))], [], none⟩
  else if !short then refused
  else match value with
    | [] => refused
    | c :: rest =>
      if separated || c = '-' then refused
      else match g.withSpelling? ['-', c] with
        | none => .ok ⟨[(f.meaning, none)], [String.ofList ('-' :: value)], none⟩
        | some (next, _) =>
          match (match rest with
            | [] => if next.takesValue then .ok ⟨[], [], some next⟩ else .ok ⟨[(next.meaning, none)], [], none⟩
            | '=' :: rest => g.joined next true true rest
            | c :: rest => g.joined next true false (c :: rest) : Except UsageError (Joined ι)) with
          | .ok j => .ok { j with settings := (f.meaning, none) :: j.settings }
          | .error e => .error e
termination_by value.length

/-- Takes apart an argument that looks like an option. -/
def takeApart (g : Grammar ι) (argument : String) (s : Spelled ι) : Except UsageError (Joined ι) :=
  match s.flag, s.value with
  | none, _ => .ok ⟨[], [argument], none⟩
  | some f, some (separated, value) => g.joined f s.short separated value
  | some f, none => if f.takesValue then .ok ⟨[], [], some f⟩ else .ok ⟨[(f.meaning, none)], [], none⟩

/-- Adds what an argument set; the option for help ends the reading. -/
def add (g : Grammar ι) (r : Reading ι) (j : Joined ι) : Except Halt (Reading ι) :=
  if j.settings.any fun (meaning, _) => g.isHelp meaning then .error .help
  else .ok { r with settings := r.settings ++ j.settings, extras := r.extras ++ j.extras }

/-- Ends a run of arguments that are no options: they are the operands, if those have not been found, or left over. -/
def endRun (g : Grammar ι) (r : Reading ι) (run : List (String × Shape ι)) : Reading ι :=
  let arguments := run.map (·.1)
  let hasOperand := run.any fun
    | (_, .operand) => true
    | _ => false
  match r.operands with
  | none =>
    if g.operands = .zeroOrMore || hasOperand then
      { r with operands := some (if g.operands = .command then arguments else arguments.erase "--") }
    else { r with extras := r.extras ++ arguments }
  | some _ => { r with extras := r.extras ++ arguments }

/-- Reads arguments; `run` are those since the last option, and `taken` says that the next one is the value of an option. -/
def readFrom (g : Grammar ι) (r : Reading ι) (run : List (String × Shape ι)) (taken : Bool) :
    List (String × Shape ι) → Except Halt (Reading ι)
  | [] => .ok (g.endRun r run)
  | (argument, shape) :: rest =>
    if taken then g.readFrom r [] false rest
    else match shape with
      | .operand =>
        if g.operands = .command ∧ r.operands = none then
          .ok { r with operands := some ((run ++ (argument, shape) :: rest).map (·.1)) }
        else g.readFrom r (run ++ [(argument, shape)]) false rest
      | .dashes => g.readFrom r (run ++ [(argument, shape)]) false rest
      | .option spelled => do
        let r := if run.isEmpty then r else g.endRun r run
        let j ← (g.takeApart argument spelled).mapError .error
        match j.awaits with
        | none => g.readFrom (← g.add r j) [] false rest
        | some f =>
          match rest with
          | (value, .operand) :: _ =>
            let j := { j with settings := j.settings ++ [(f.meaning, some value)] }
            g.readFrom (← g.add r j) [] true rest
          | _ => throw (.error (.missingValue g.program (flagName f)))

/-- Reads the arguments of a command. -/
def read (g : Grammar ι) (arguments : List String) : Except Halt (Reading ι) := do
  let shaped ← (g.shapes arguments).mapError .error
  let r ← g.readFrom ⟨[], none, []⟩ [] false shaped
  if g.operands = .oneOrMore ∧ r.operands = none then throw (.error (.missingOperand g.program g.operandName))
  return r

end Grammar

end RunParams.Tool

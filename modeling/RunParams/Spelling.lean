import RunParams.Text.LetterCase

/-!
# Spelling

A parameter has a canonical name, such as `UpwindWeight`, and a flag on the command line, `--upwind-weight`. Keys may spell it
either way: a dash stands for the capital that follows it.
-/

namespace RunParams

/-- Why a key is the name of no parameter. -/
inductive NameError
  | empty
  | firstNotLetter (key : String)
  | malformed (key : String)
  deriving DecidableEq

/-- The wording of a name error, with what is said in front of it. -/
def NameError.message (place : String) : NameError → String
  | .empty => s!"{place}Empty parameter names are invalid"
  | .firstNotLetter key => s!"{place}Parameter name '{key}' is invalid: First character must be a letter"
  | .malformed key => s!"{place}Invalid parameter name '{key}'"

namespace Spelling

/-- The lower-case text of a name after its first character, with a dash before each capital. -/
def dashed : List Char → List Char
  | [] => []
  | c :: s => (if Text.isUpper c then ['-'] else []) ++ Text.lower c ++ dashed s

/-- The flag of a name. A name of one character has one leading dash, any other two. -/
def toFlag (name : String) : String :=
  match name.toList with
  | [] => "--"
  | [c] => String.ofList ('-' :: Text.lower c)
  | c :: s => String.ofList ('-' :: '-' :: Text.lower c ++ dashed s)

/-- The canonical text of a key after its first letter: letters and digits stay, and a dash with the letter after it becomes the
capital. Nothing else is allowed. -/
def undashed : List Char → Option (List Char)
  | [] => some []
  | '-' :: c :: s => if c.isAlpha then (undashed s).map (c.toUpper :: ·) else none
  | c :: s => if c.isAlphanum then (undashed s).map (c :: ·) else none

/-- The name that a key spells. The first letter becomes a capital too if `capitalize` is set. -/
def canonicalize (capitalize : Bool) (key : String) : Except NameError String :=
  match key.toList with
  | [] => .error .empty
  | c :: s =>
    if c.isAlpha then
      match undashed s with
      | some name => .ok (String.ofList ((if capitalize then c.toUpper else c) :: name))
      | none => .error (.malformed key)
    else .error (.firstNotLetter key)

/-- The segments of a dotted key or path. -/
def segments (path : String) : List String :=
  (path.toList.splitOn '.').map String.ofList

/-- The path that a dotted key spells, segment by segment. -/
def canonicalizePath (key : String) : Except NameError String := do
  let names ← (segments key).mapM (canonicalize true)
  return ".".intercalate names

/-- The name that a flag, with or without its leading dashes, stands for. -/
def ofFlag (flag : String) : Except NameError String :=
  match flag.toList with
  | '-' :: '-' :: key => canonicalize true (String.ofList key)
  | '-' :: key => canonicalize true (String.ofList key)
  | key => canonicalize true (String.ofList key)

end Spelling

end RunParams

import RunParams.Text.Lines
import RunParams.Token
import RunParams.Tree

/-!
# Parameter documents

A document assigns one value to a key on each line, `key = value`, with comments after `#` or `;`. Its lines are read in order
into a tree; the first faulty line ends the reading, and what the lines before it wrote stays.
-/

namespace RunParams

/-- What is wrong with a line of a document. -/
inductive LineError
  | badKey (error : NameError)
  | duplicate (key : String)
  | notAssignment
  | badQuote (error : QuoteError)
  | trailing (text : String)
  | tree (error : TreeError)
  deriving DecidableEq

/-- A faulty line, counted from one, of the document with the given name. -/
structure DocumentError where
  source : String
  line : Nat
  cause : LineError
  deriving DecidableEq

/-- The wording of a document error. A tree error does not say where it arose. -/
def DocumentError.message (e : DocumentError) : String :=
  let place := s!"{e.source}:{e.line}: "
  match e.cause with
  | .badKey error => error.message place
  | .duplicate key => s!"{place}Parameter '{key}' seen multiple times in the same file"
  | .notAssignment => s!"{place}Syntax error, expecting 'key=value'"
  | .badQuote error => error.message place
  | .trailing text => s!"{place}Syntax error, unexpected '{text}' after value"
  | .tree error => error.message

namespace Document

/-- Whether nothing, or only a comment, is left of a line. -/
def isDone : List Char → Bool
  | [] => true
  | c :: _ => c == '#' || c == ';'

/-- A line up to its key: a line that assigns nothing, or the path that is assigned with the text behind the key. -/
inductive Head
  | nothing
  | key (path : String) (rest : List Char)
  deriving DecidableEq

/-- Reads a line up to its key. -/
def readHead (line : List Char) : Except NameError Head :=
  let s := Text.skipBlanks line
  if isDone s then .ok .nothing
  else
    let (key, rest) := Token.key s
    (Spelling.canonicalizePath (String.ofList key)).map (Head.key · rest)

/-- Reads what follows the key: an equals sign, the value, and perhaps a comment. -/
def readValue (rest : List Char) : Except LineError String :=
  match Text.skipBlanks rest with
  | '=' :: s =>
    let s := Text.skipBlanks s
    if isDone s then .error .notAssignment
    else match Token.value (Token.startsQuoted s) s with
      | .error e => .error (.badQuote e)
      | .ok (value, rest) =>
        let rest := Text.skipBlanks rest
        if isDone rest then .ok (String.ofList value) else .error (.trailing (String.ofList rest))
  | _ => .error .notAssignment

/-- How far a document has been read: the tree with what it wrote, and the paths that it has assigned. -/
structure Progress where
  tree : Tree
  seen : List String

/-- Writes a value, unless the path has one that is to be kept. -/
def write (overwrite : Bool) (tree : Tree) (path value : String) : Tree × Option TreeError :=
  if overwrite || !tree.hasKey path then tree.set path value else (tree, none)

/-- Reads one line. -/
def readLine (overwrite : Bool) (p : Progress) (line : List Char) : Progress × Option LineError :=
  match readHead line with
  | .error e => (p, some (.badKey e))
  | .ok .nothing => (p, none)
  | .ok (.key path rest) =>
    if p.seen.contains path then (p, some (.duplicate path))
    else match readValue rest with
      | .error e => (p, some e)
      | .ok value =>
        let (tree, error) := write overwrite p.tree path value
        (⟨tree, path :: p.seen⟩, error.map .tree)

/-- Reads lines, the first of which has the number `n`. -/
def readLines (source : String) (overwrite : Bool) (n : Nat) (p : Progress) :
    List (List Char) → Tree × Option DocumentError
  | [] => (p.tree, none)
  | line :: lines =>
    match readLine overwrite p line with
    | (p, some cause) => (p.tree, some ⟨source, n, cause⟩)
    | (p, none) => readLines source overwrite (n + 1) p lines

/-- Reads a document into a tree. Values that the tree already has are replaced only if `overwrite` is set. -/
def read (tree : Tree) (text source : String) (overwrite : Bool) : Tree × Option DocumentError :=
  readLines source overwrite 1 ⟨tree, []⟩ (Text.lines text.toList)

end Document

end RunParams

import RunParams.Console.Renderer
import RunParams.Console.Style

/-!
# Markup

A console without colours. Text for it may hold tags in square brackets that style what lies between them, and codes for pictures
between colons. A backslash before a tag makes it plain text. Styles do not show, so what is left is the plain text.
-/

namespace RunParams.Console

/-- A tag that closes what is not open. -/
structure MarkupError where
  tag : List Char
  position : Nat
  deriving DecidableEq

/-- The wording of a markup error. -/
def MarkupError.message (e : MarkupError) : String :=
  let tag := String.ofList e.tag
  if e.tag = "/".toList then s!"closing tag '[/]' at position {e.position} has nothing to close"
  else s!"closing tag '[{tag}]' at position {e.position} doesn't match any open tag"

/-! ### Tags -/

/-- Whether a tag may begin with a character. -/
def startsTag (c : Char) : Bool :=
  ('a' ≤ c && c ≤ 'z') || c == '#' || c == '/' || c == '@'

/-- Splits a tag off a text: what stands between its brackets. -/
def splitTag : List Char → Option (List Char × List Char)
  | '[' :: c :: s =>
    if startsTag c then
      let inside := s.takeWhile fun d => d != ']' && d != '['
      match s.drop inside.length with
      | ']' :: rest => some (c :: inside, rest)
      | _ => none
    else none
  | _ => none

/-- A part of marked-up text: plain text, or a tag behind a number of backslashes. -/
inductive Part
  | plain (text : List Char)
  | tag (backslashes : Nat) (inside : List Char)
  deriving DecidableEq

/-- Puts a character before the parts of the rest. -/
def consPlain (c : Char) : List Part → List Part
  | .plain text :: parts => .plain (c :: text) :: parts
  | parts => .plain [c] :: parts

/-- The parts of a text. `skip` characters belong to a tag that has been read, and `backslashes` stand directly before. -/
def parts (skip backslashes : Nat) : List Char → List Part
  | [] => if backslashes = 0 then [] else [.plain (List.replicate backslashes '\\')]
  | c :: s =>
    match skip with
    | n + 1 => parts n 0 s
    | 0 =>
      if c = '\\' then parts 0 (backslashes + 1) s
      else match splitTag (c :: s) with
        | some (inside, _) => .tag backslashes inside :: parts (inside.length + 1) 0 s
        | none =>
          List.foldr (fun d ps => consPlain d ps) (parts 0 0 s) (List.replicate backslashes '\\' ++ [c])

/-- The text in which every tag of the given text is plain. -/
def escape (text : String) : String :=
  let escaped := (parts 0 0 text.toList).flatMap fun
    | .plain s => s
    | .tag backslashes inside => List.replicate (2 * backslashes + 1) '\\' ++ '[' :: inside ++ [']']
  let stop := match text.toList.reverse with
    | '\\' :: '\\' :: _ => []
    | '\\' :: _ => ['\\']
    | _ => []
  String.ofList (escaped ++ stop)

/-! ### Pictures -/

/-- The picture of a code, if there is one. -/
abbrev Pictures := String → Option String

/-- The pictures whose codes are numbers, such as a line number between colons. -/
def numberPictures : Pictures :=
  fun code => [("100", "💯"), ("1234", "🔢")].lookup code

/-- The code that starts behind a colon: its name, the variant that is asked for, and the text behind the closing colon. -/
def splitCode (name : List Char) : List Char → Option (List Char × List Char × List Char)
  | [] => none
  | c :: s =>
    if c = ':' then some (name.reverse, [], s)
    else if "-emoji:".toList.isPrefixOf (c :: s) then some (name.reverse, [Char.ofNat 0xFE0F], (c :: s).drop 7)
    else if "-text:".toList.isPrefixOf (c :: s) then some (name.reverse, [Char.ofNat 0xFE0E], (c :: s).drop 6)
    else if Text.isBlank c then none
    else splitCode (c :: name) s

/-- The text with pictures in place of their codes. `skip` characters belong to a code that has been read. -/
def withPictures (pictures : Pictures) (skip : Nat) : List Char → List Char
  | [] => []
  | c :: s =>
    match skip with
    | n + 1 => withPictures pictures n s
    | 0 =>
      if c = ':' then
        match splitCode [] s with
        | none => c :: withPictures pictures 0 s
        | some (name, variant, rest) =>
          let length := s.length - rest.length
          match pictures (String.ofList (lowerCase name)) with
          | some picture => picture.toList ++ variant ++ withPictures pictures length s
          | none => c :: s.take length ++ withPictures pictures length s
      else c :: withPictures pictures 0 s

/-! ### Rendering -/

/-- Writes a bracket for a backslash and a bracket. -/
def openBrackets : List Char → List Char
  | '\\' :: '[' :: s => '[' :: openBrackets s
  | c :: s => c :: openBrackets s
  | [] => []

/-- Whether a character is dropped: bell, backspace, vertical tab, form feed and carriage return. -/
def isDropped (c : Char) : Bool :=
  c == '\x07' || c == '\x08' || c == '\x0b' || c == '\x0c' || c == '\r'

/-- Plain text as it is shown. -/
def showPlain (pictures : Pictures) (text : List Char) : List Char :=
  (withPictures pictures 0 text).filter (!isDropped ·)

/-- The name of a tag: what stands before an equals sign. -/
def tagName (inside : List Char) : List Char :=
  inside.takeWhile (· != '=')

/-- The tags that are open after a tag, the innermost first. A closing tag closes the innermost tag of its name, or of any. -/
def applyTag (opened : List (List Char)) (position : Nat) (inside : List Char) :
    Except MarkupError (List (List Char)) :=
  match tagName inside with
  | '/' :: name =>
    if Text.trim Text.isBlank name = [] then
      match opened with
      | [] => .error ⟨['/'], position⟩
      | _ :: rest => .ok rest
    else
      let normal := normalName (Text.trim Text.isBlank name)
      if opened.contains normal then .ok (opened.erase normal) else .error ⟨inside, position⟩
  | name => .ok (normalName name :: opened)

/-- The shown text of parts, the first of which stands at `position`. -/
def renderParts (pictures : Pictures) (opened : List (List Char)) (position : Nat) :
    List Part → Except MarkupError (List Char)
  | [] => .ok []
  | .plain text :: rest => do
    return showPlain pictures (openBrackets text) ++ (← renderParts pictures opened (position + text.length) rest)
  | .tag backslashes inside :: rest => do
    let shown := List.replicate (backslashes / 2) '\\'
    let next := position + backslashes + inside.length + 2
    if backslashes % 2 = 1 then
      return shown ++ showPlain pictures ('[' :: inside ++ [']']) ++ (← renderParts pictures opened next rest)
    else
      let opened ← applyTag opened (position + backslashes) inside
      return shown ++ (← renderParts pictures opened next rest)

/-- The plain text of marked-up text. -/
def render (pictures : Pictures) (text : List Char) : Except MarkupError (List Char) :=
  if text.contains '[' then renderParts pictures [] 0 (parts 0 0 text) else .ok (showPlain pictures text)

/-! ### Printing -/

/-- Replaces tabs by spaces up to the next column that is a multiple of eight. -/
def expandTabs (column : Nat) : List Char → List Char
  | [] => []
  | c :: s =>
    if c = '\t' then
      let spaces := 8 - column % 8
      List.replicate spaces ' ' ++ expandTabs (column + spaces) s
    else c :: expandTabs (if c = '\n' then 0 else column + 1) s

/-- The text of an item. -/
def Item.render (pictures : Pictures) : Item → Except MarkupError (List Char)
  | .markup text => Console.render pictures text.toList
  | .object text => .ok (showPlain pictures text.toList)

/-- The text of items with a space between neighbours, on a line of its own. -/
def compose (pictures : Pictures) (items : List Item) : Except MarkupError String := do
  let shown ← items.mapM (Item.render pictures)
  return String.ofList (expandTabs 0 ([' '].intercalate shown) ++ ['\n'])

/-- The console that reads markup. -/
def markup (pictures : Pictures) : Renderer where
  escape := escape
  print items := (compose pictures items).mapError fun e => ⟨"MarkupError", e.message⟩

end RunParams.Console

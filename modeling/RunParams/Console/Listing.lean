/-!
# Lists in messages

A few items in a sentence, and errors one below the other, with or without markup.
-/

namespace RunParams.Console

/-- A text in a style; plain without one. -/
def styled (style : Option String) (text : String) : String :=
  match style with
  | none => text
  | some name => s!"[{name}]{text}[/{name}]"

/-- Items in a sentence: `a`, `a and b`, `a, b, and c`; the text `empty` stands for no items. -/
def sentence (style : Option String) (empty : String) : List String → String
  | [] => styled style empty
  | [a] => styled style a
  | [a, b] => styled style a ++ " and " ++ styled style b
  | items =>
    let first := items.dropLast.map (styled style)
    let last := items.getLast?.toList.map (styled style)
    ", ".intercalate first ++ ", and " ++ String.join last

/-- What stands for no items in a sentence. -/
def nothingText : String := "nothing"

/-- Errors below a heading, one to a line; empty without errors. -/
def errorList (marked : Bool) (errors : List String) : String :=
  let red := if marked then some "red" else none
  let mark := styled red "✗"
  if errors.isEmpty then ""
  else "\n".intercalate (styled red "Parameter Errors:" :: errors.map fun e => s!"  {mark} {e}")

end RunParams.Console

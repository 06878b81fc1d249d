import RunParams.Console.Renderer
import RunParams.Text.Lines

/-!
# The console printer

A printer writes marked-up messages line by line behind the current indentation, which is a stack of texts. Objects that
are printed along with a message follow it, each behind a space. Text can also be written as it is.
-/

namespace RunParams.Console

/-- Why a printer fails. -/
inductive PrinterError
  /-- There is no indentation left to remove. -/
  | emptyStack
  /-- The console fails. -/
  | console (error : Fault)
  deriving DecidableEq

/-- The wording of a printer error. -/
def PrinterError.message : PrinterError → String
  | .emptyStack => "pop from empty list"
  | .console e => e.message

/-- The indentation, the outermost part first, and all that has been written. -/
structure Printer where
  stack : List String
  written : String

namespace Printer

/-- A printer that has written nothing. -/
def empty : Printer := ⟨[], ""⟩

/-- The indentation where none is given. -/
def defaultIndent : String := "  "

/-- Adds a text to the indentation. -/
def indent (p : Printer) (text : String) : Printer :=
  { p with stack := p.stack ++ [text] }

/-- Removes the innermost parts of the indentation. If there are not that many, all are removed and it is an error. -/
def unindent (p : Printer) (times : Int) : Printer × Option PrinterError :=
  let n := times.toNat
  ({ p with stack := p.stack.take (p.stack.length - n) }, if n ≤ p.stack.length then none else some .emptyStack)

/-- Removes all indentation. -/
def reset (p : Printer) : Printer :=
  { p with stack := [] }

/-- Writes text as it is. -/
def write (p : Printer) (text : String) : Printer :=
  { p with written := p.written ++ text }

/-- A message with the indentation before each of its lines. -/
def indented (p : Printer) (message : String) : String :=
  let lead := (String.join p.stack).toList
  String.ofList (Text.unlines ((Text.lines message.toList).map (lead ++ ·)))

/-- Prints a message, indented unless `noIndent` is set, and the items behind it. -/
def print (r : Renderer) (p : Printer) (message : String) (items : List Item) (noIndent : Bool) :
    Printer × Option PrinterError :=
  match r.print (.markup (if noIndent then message else p.indented message) :: items) with
  | .ok text => (p.write text, none)
  | .error e => (p, some (.console e))

end Printer

end RunParams.Console

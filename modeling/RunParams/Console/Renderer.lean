import RunParams.Fault

/-!
# Consoles

What becomes of a text on the console is for the console to say: it reads markup in the texts that are printed on it, in which
other text has to be escaped.
-/

namespace RunParams.Console

/-- Something that is printed: marked-up text, or the text of an object. -/
inductive Item
  | markup (text : String)
  | object (text : String)
  deriving DecidableEq

/-- A console: the markup that stands for a text as it is, and what is written for items that are printed one behind the other,
which is a fault if they cannot be read. -/
structure Renderer where
  escape : String → String
  print : List Item → Except Fault String

end RunParams.Console

import RunParams.Quoted
import RunParams.Text.Blank

/-!
# Tokens

The first key or value of a line, with the text behind it. A key ends at white space or an equals sign, a value at white space
or, when it is quoted, at its closing quote.
-/

namespace RunParams.Token

open Text

/-- Whether a character may stand in a key token. -/
def inKey (c : Char) : Bool :=
  !isBlank c && c != '='

/-- Splits the key off a text. -/
def key (s : List Char) : List Char × List Char :=
  (s.takeWhile inKey, s.dropWhile inKey)

/-- Splits an unquoted value off a text. -/
def bare (s : List Char) : List Char × List Char :=
  (s.takeWhile (!isBlank ·), s.dropWhile (!isBlank ·))

/-- Whether a text starts with a quote. -/
def startsQuoted (s : List Char) : Bool :=
  s.head? == some '"'

/-- Splits a value off a text, a quoted one if so demanded. -/
def value (quoted : Bool) (s : List Char) : Except QuoteError (List Char × List Char) :=
  if quoted then Quoted.decode s else .ok (bare s)

end RunParams.Token

/-!
# Quoted values

A quoted value stands between double quotes. Inside, a backslash and a letter stand for a character; the quote and the backslash
themselves must be written so.
-/

namespace RunParams

/-- Why a text does not start with a quoted value. -/
inductive QuoteError
  | notQuoted
  | endsAfterBackslash
  | unknownEscape (c : Char)
  | unclosed
  deriving DecidableEq

/-- The wording of a quote error, with what is said in front of it. -/
def QuoteError.message (place : String) : QuoteError → String
  | .notQuoted => s!"{place}Expected quoted string"
  | .endsAfterBackslash => s!"{place}Unexpected end of quoted string"
  | .unknownEscape c => s!"{place}Unknown escape character '\\{c}'"
  | .unclosed => s!"{place}Missing closing quote in quoted string"

namespace Quoted

/-- The character that a backslash and the given one stand for. -/
def unescape? : Char → Option Char
  | 'n' => some '\n'
  | 'r' => some '\r'
  | 't' => some '\t'
  | '"' => some '"'
  | '\\' => some '\\'
  | _ => none

/-- Reads the value after an opening quote, and the text behind its closing quote. -/
def decodeBody : List Char → Except QuoteError (List Char × List Char)
  | [] => .error .unclosed
  | '"' :: rest => .ok ([], rest)
  | ['\\'] => .error .endsAfterBackslash
  | '\\' :: c :: s =>
    match unescape? c with
    | none => .error (.unknownEscape c)
    | some d => (decodeBody s).map fun (value, rest) => (d :: value, rest)
  | c :: s => (decodeBody s).map fun (value, rest) => (c :: value, rest)

/-- Splits a quoted value off a text. -/
def decode : List Char → Except QuoteError (List Char × List Char)
  | '"' :: s => decodeBody s
  | _ => .error .notQuoted

/-- How a character is written inside quotes. -/
def escape (c : Char) : List Char :=
  if c = '\n' then ['\\', 'n']
  else if c = '\r' then ['\\', 'r']
  else if c = '\t' then ['\\', 't']
  else if c = '"' ∨ c = '\\' then ['\\', c]
  else [c]

/-- The quoted form of a value. -/
def encode (value : List Char) : List Char :=
  '"' :: value.flatMap escape ++ ['"']

end Quoted

end RunParams

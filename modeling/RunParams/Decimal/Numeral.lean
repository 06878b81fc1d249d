import RunParams.Decimal.Binary
import RunParams.Text.Blank
import RunParams.Text.DecimalDigit

/-!
# Numerals

Reading whole numbers, floating-point, complex and rational numbers from text. Digits may be of any script, white space may
surround a numeral, and single underscores may stand between digits.
-/

namespace RunParams.Decimal

open Text

/-- The most digits that a whole number may have, when it is read and when it is written. -/
def maxDigits : Nat := 4300

/-- White space that may surround a numeral: all but the information separators. -/
def isNumeralBlank (c : Char) : Bool :=
  isBlank c && !isSeparator c

/-- A digit of any script as the digit of ASCII; other characters stay. -/
def basicDigit (c : Char) : Char :=
  match digitValue? c with
  | some n => Nat.digitChar n
  | none => c

/-- Removes the underscores, each of which must stand between two digits. `after` tells whether a digit comes before. -/
def dropUnderscores (after : Bool) : List Char → Option (List Char)
  | [] => some []
  | '_' :: c :: s => if after && c.isDigit then (dropUnderscores true s).map (c :: ·) else none
  | ['_'] => none
  | c :: s => (dropUnderscores c.isDigit s).map (c :: ·)

/-- The characters of a numeral: white space and underscores removed, all digits basic. -/
def numeralChars (text : String) : Option (List Char) :=
  dropUnderscores false (trim isNumeralBlank (text.toList.map basicDigit))

/-- Splits off a sign: whether it is a minus. -/
def splitSign : List Char → Bool × List Char
  | '-' :: s => (true, s)
  | '+' :: s => (false, s)
  | s => (false, s)

/-- The value of basic digits. -/
def digitsValue (ds : List Char) : Nat :=
  Nat.ofDigitChars 10 ds 0

/-- The whole number that digits write, unless there are too many of them. -/
def readNat? (ds : List Char) : Option Nat :=
  if ds ≠ [] ∧ ds.all Char.isDigit ∧ ds.length ≤ maxDigits then some (digitsValue ds) else none

/-- Reads a whole number. -/
def readInt? (text : String) : Option Int := do
  let (minus, ds) := splitSign (← numeralChars text)
  let n ← readNat? ds
  return if minus then -n else n

/-- A number as it is written: `digits * 10 ^ exp`, an infinity, or what is not a number, each with a sign. -/
inductive Numeral
  | finite (minus : Bool) (digits : Nat) (exp : Int)
  | infinite (minus : Bool)
  | notANumber

/-- The nearest floating-point number. -/
def Numeral.toFloat : Numeral → Float
  | .finite minus digits exp => if minus then -nearest digits exp else nearest digits exp
  | .infinite minus => if minus then -(1 / 0) else 1 / 0
  | .notANumber => 0 / 0

/-- Splits off a word spelled in small letters, in any case. -/
def splitWord (word : List Char) (s : List Char) : Option (List Char) :=
  if (s.take word.length).map Char.toLower = word then some (s.drop word.length) else none

/-- Splits off an exponent: the letter e, a sign, and at least one digit. Without it the exponent is zero. -/
def splitExponent (s : List Char) : Int × List Char :=
  match s with
  | 'e' :: rest | 'E' :: rest =>
    let (minus, ds) := splitSign rest
    let exp := ds.takeWhile Char.isDigit
    if exp = [] then (0, s)
    else (if minus then -(digitsValue exp : Int) else digitsValue exp, ds.dropWhile Char.isDigit)
  | _ => (0, s)

/-- Splits off digits with an optional point among them and an optional exponent after them. -/
def splitFinite (minus : Bool) (s : List Char) : Option (Numeral × List Char) :=
  let whole := s.takeWhile Char.isDigit
  let rest := s.dropWhile Char.isDigit
  let (fraction, rest) := match rest with
    | '.' :: after => (after.takeWhile Char.isDigit, after.dropWhile Char.isDigit)
    | _ => ([], rest)
  if whole = [] ∧ fraction = [] then none
  else
    let (exp, rest) := splitExponent rest
    some (.finite minus (digitsValue (whole ++ fraction)) (exp - fraction.length), rest)

/-- Splits the longest floating-point numeral off a text. -/
def splitFloat (s : List Char) : Option (Numeral × List Char) :=
  let (minus, body) := splitSign s
  (splitFinite minus body)
    |>.or ((splitWord "infinity".toList body).map (.infinite minus, ·))
    |>.or ((splitWord "inf".toList body).map (.infinite minus, ·))
    |>.or ((splitWord "nan".toList body).map (.notANumber, ·))

/-- Reads a floating-point number. -/
def readFloat? (text : String) : Option Float :=
  match (numeralChars text).bind splitFloat with
  | some (x, []) => some x.toFloat
  | _ => none

/-- Splits off the letter of the imaginary unit. -/
def splitUnit : List Char → Option (List Char)
  | 'j' :: s | 'J' :: s => some s
  | _ => none

/-- Splits off an imaginary part: a signed numeral, or the sign alone for one unit, and the imaginary unit. -/
def splitImaginary (s : List Char) : Option (Float × List Char) :=
  match splitFloat s with
  | some (im, rest) => (splitUnit rest).map (im.toFloat, ·)
  | none =>
    let (minus, rest) := splitSign s
    (splitUnit rest).map (if minus then -1 else 1, ·)

/-- Splits off a complex number: a real part, an imaginary part, or one after the other. -/
def splitComplex (s : List Char) : Option ((Float × Float) × List Char) :=
  match splitFloat s with
  | none => (splitImaginary s).map fun (im, rest) => ((0, im), rest)
  | some (x, rest) =>
    match rest with
    | '+' :: _ | '-' :: _ => (splitImaginary rest).map fun (im, rest) => ((x.toFloat, im), rest)
    | _ =>
      match splitUnit rest with
      | some rest => some ((0, x.toFloat), rest)
      | none => some ((x.toFloat, 0), rest)

/-- Reads a complex number, which may stand between parentheses. -/
def readComplex? (text : String) : Option (Float × Float) := do
  match ← numeralChars text with
  | '(' :: inside =>
    let (z, rest) ← splitComplex (inside.dropWhile isNumeralBlank)
    if rest.dropWhile isNumeralBlank = [')'] then some z else none
  | s =>
    let (z, rest) ← splitComplex s
    if rest = [] then some z else none

/-- Reads a rational number: a quotient of digits, or digits with an optional point and exponent. The denominator is not
zero, and each run of digits is a whole number that can be read. -/
def readRat? (text : String) : Option Rat := do
  let (minus, s) := splitSign (trim isBlank (text.toList.map basicDigit))
  let s ← dropUnderscores false s
  let whole := s.takeWhile Char.isDigit
  let rest := s.dropWhile Char.isDigit
  let sign : Int := if minus then -1 else 1
  match rest with
  | '/' :: den =>
    let n ← readNat? whole
    let d ← readNat? den
    if d = 0 then none else some (mkRat (sign * n) d)
  | _ =>
    let (fraction, rest) := match rest with
      | '.' :: after => (after.takeWhile Char.isDigit, after.dropWhile Char.isDigit)
      | _ => ([], rest)
    if whole = [] ∧ fraction = [] then none
    else
      let n ← if whole = [] then some 0 else readNat? whole
      let f ← if fraction = [] then some 0 else readNat? fraction
      let exp ← readExponent rest
      let scale := exp - fraction.length
      let digits := timesPow n 10 fraction.length + f
      some (mkRat (sign * timesPow digits 10 scale) (timesPow 1 10 (-scale)))
where
  /-- The exponent that ends a rational numeral. -/
  readExponent : List Char → Option Int
    | [] => some 0
    | c :: rest =>
      if c = 'e' ∨ c = 'E' then
        let (minus, ds) := splitSign rest
        (readNat? ds).map fun n => if minus then -(n : Int) else n
      else none

end RunParams.Decimal

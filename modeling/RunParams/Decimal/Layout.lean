import RunParams.Decimal.Shortest

/-!
# Floating-point text

A number is written with the digits of its shortest decimal: positionally when the exponent of the leading digit is from -4 to
15, and otherwise as digits and an exponent of at least two places.
-/

namespace RunParams.Decimal

/-- The digits of a number, at least `width` of them. -/
def padded (width n : Nat) : List Char :=
  let ds := Nat.toDigits 10 n
  List.replicate (width - ds.length) '0' ++ ds

/-- The text of a decimal. A whole number keeps a final `.0` when `pointZero` is set. -/
def Digits.text (pointZero : Bool) (d : Digits) : List Char :=
  let ds := Nat.toDigits 10 d.digits
  let leading := d.exp + ds.length - 1
  if -4 ≤ leading ∧ leading < 16 then
    if 0 ≤ d.exp then ds ++ List.replicate d.exp.toNat '0' ++ (if pointZero then ['.', '0'] else [])
    else if 0 ≤ leading then ds.take (leading.toNat + 1) ++ '.' :: ds.drop (leading.toNat + 1)
    else '0' :: '.' :: List.replicate (-leading - 1).toNat '0' ++ ds
  else
    let mantissa := match ds with
      | [] => []
      | [c] => [c]
      | c :: rest => c :: '.' :: rest
    mantissa ++ 'e' :: (if leading < 0 then '-' else '+') :: padded 2 leading.natAbs

/-- The text of a floating-point number without its sign. -/
def magnitudeText (pointZero : Bool) (x : Float) : List Char :=
  if x.isNaN then "nan".toList
  else if x.isInf then "inf".toList
  else (Binary.ofBits x.toBits).shortest.text pointZero

/-- Whether the text of a number starts with a minus sign: zero has one too, what is not a number has none. -/
def hasMinus (x : Float) : Bool :=
  isNegative x && !x.isNaN

/-- The text of a floating-point number; whole numbers end in `.0`. -/
def floatText (x : Float) : String :=
  String.ofList ((if hasMinus x then ['-'] else []) ++ magnitudeText true x)

/-- The text of a complex number: `(re+imj)`, or `imj` alone when the real part is the positive zero. -/
def complexText (re im : Float) : String :=
  let sign (x : Float) (plus : List Char) := if hasMinus x then ['-'] else plus
  if re == 0 && !isNegative re then String.ofList (sign im [] ++ magnitudeText false im ++ ['j'])
  else String.ofList ('(' :: sign re [] ++ magnitudeText false re ++ sign im ['+'] ++ magnitudeText false im ++ ['j', ')'])

end RunParams.Decimal

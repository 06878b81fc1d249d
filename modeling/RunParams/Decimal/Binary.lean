/-!
# Binary fractions

A finite floating-point number is `m * 2 ^ q`. This module takes the numbers apart, and rounds a quotient of natural numbers to
the nearest one, a tie going to the even neighbour.
-/

namespace RunParams.Decimal

/-- A finite number that is not negative, `m * 2 ^ q`. The value below it is closer than the value above it exactly when
`narrowBelow` is set, at the powers of two. -/
structure Binary where
  m : Nat
  q : Int
  narrowBelow : Bool
  deriving DecidableEq

/-- A number times a power of a base; the power is one if the exponent is negative. -/
def timesPow (n base : Nat) (exp : Int) : Nat :=
  n * Nat.pow base exp.toNat

/-- The weight of the bit above those of the fraction, `2 ^ 52`. -/
def leadingBit : Nat := 0x10000000000000

/-- The bits of the exponent of infinity. -/
def infiniteExponent : Nat := 0x7FF

/-- The number with the given bits, its sign left out. -/
def Binary.ofBits (bits : UInt64) : Binary :=
  let exponent : Nat := bits.toNat / leadingBit % (infiniteExponent + 1)
  let fraction : Nat := bits.toNat % leadingBit
  if exponent = 0 then ⟨fraction, -1074, false⟩
  else ⟨leadingBit + fraction, (exponent : Int) - 1075, fraction == 0 && exponent > 1⟩

/-- The quotient of two numbers rounded to the nearest whole one, and halfway to the even one. -/
def roundDiv (num den : Nat) : Nat :=
  let quotient := num / den
  let rest := 2 * (num % den)
  if rest > den ∨ (rest = den ∧ quotient % 2 = 1) then quotient + 1 else quotient

/-- `num / 2 ^ q` as a quotient of two numbers. -/
def scaled (num den : Nat) (q : Int) : Nat × Nat :=
  (timesPow num 2 (-q), timesPow den 2 q)

/-- The exponent at which a quotient has 53 binary digits before the point, or the least exponent of all. -/
def exponentOf (num den : Nat) : Int :=
  let q := (num.log2 : Int) - den.log2 - 52
  let (n, d) := scaled num den q
  max (-1074) (if n < leadingBit * d then q - 1 else q)

/-- The bits of infinity. -/
def infinityBits : Nat := infiniteExponent * leadingBit

/-- The bits of the number nearest to a quotient; too large a quotient rounds to infinity. -/
def nearestBits (num den : Nat) : Nat :=
  if num = 0 then 0
  else
    let q := exponentOf num den
    let (n, d) := scaled num den q
    min infinityBits ((q + 1074).toNat * leadingBit + roundDiv n d)

/-- The number nearest to `digits * 10 ^ exp`. Far beyond the range of exponents, where `size` bounds the decimal exponent, it
needs no arithmetic. -/
def nearest (digits : Nat) (exp : Int) : Float :=
  let size := ((digits.log2 : Int) + 1) * 30103 / 100000 + exp
  let bits :=
    if digits = 0 ∨ size < -400 then 0
    else if size > 400 then infinityBits
    else nearestBits (timesPow digits 10 exp) (timesPow 1 10 (-exp))
  Float.ofBits (UInt64.ofNat bits)

/-- The sign bit of a number. -/
def isNegative (x : Float) : Bool :=
  x.toBits.toNat / (leadingBit * (infiniteExponent + 1)) = 1

end RunParams.Decimal

import RunParams.Decimal.Binary

/-!
# Shortest decimals

Each floating-point number stands for the interval of the reals that round to it. Its decimal is the one with the fewest digits
in that interval, and the nearest of those; a tie goes to the even digit.
-/

namespace RunParams.Decimal

/-- The decimal `digits * 10 ^ exp`. -/
structure Digits where
  digits : Nat
  exp : Int
  deriving DecidableEq

/-- How `a * 10 ^ i` compares with `n * 2 ^ j`. -/
def compareScaled (a : Nat) (i : Int) (n : Nat) (j : Int) : Ordering :=
  compare (timesPow (timesPow a 10 i) 2 (-j)) (timesPow (timesPow n 2 j) 10 (-i))

/-- Whether a decimal rounds to the number: it lies between the middles of the gaps to the two neighbours, and may be such a
middle when the number is the even one of the two. -/
def Binary.reads (x : Binary) (d : Digits) : Bool :=
  let low := 4 * x.m - (if x.narrowBelow then 1 else 2)
  let high := 4 * x.m + 2
  let even := x.m % 2 == 0
  let atLow := compareScaled d.digits d.exp low (x.q - 2)
  let atHigh := compareScaled d.digits d.exp high (x.q - 2)
  (atLow == .gt || (even && atLow == .eq)) && (atHigh == .lt || (even && atHigh == .eq))

/-- The whole part of `x / 10 ^ exp`, and how `x` compares with the middle between that and the next point of the grid. -/
def Binary.onGrid (x : Binary) (exp : Int) : Nat × Ordering :=
  let num := timesPow (timesPow x.m 2 x.q) 10 (-exp)
  let den := timesPow (timesPow 1 2 (-x.q)) 10 exp
  let below := num / den
  (below, compareScaled (2 * below + 1) exp x.m (x.q + 1) |>.swap)

/-- The decimal on the grid of step `10 ^ exp` that rounds to the number, the nearer one if the neighbours on both sides do. -/
def Binary.pick? (x : Binary) (exp : Int) : Option Digits :=
  let (below, side) := x.onGrid exp
  let down : Digits := ⟨below, exp⟩
  let up : Digits := ⟨below + 1, exp⟩
  let preferUp := side == .gt || (side == .eq && below % 2 == 1)
  if x.reads down && (!preferUp || !x.reads up) then some down
  else if x.reads up then some up
  else none

/-- The least `k` with `x < 10 ^ k`, for a number that is not zero. -/
def Binary.scale (x : Binary) : Int :=
  let guess := ((x.m.log2 : Int) + x.q) * 30103 / 100000
  if compareScaled 1 guess x.m x.q == .gt then guess
  else if compareScaled 1 (guess + 1) x.m x.q == .gt then guess + 1
  else guess + 2

/-- Moves the trailing zeros of the digits into the exponent. -/
def Digits.strip (d : Digits) : (fuel : Nat) → Digits
  | 0 => d
  | fuel + 1 => if d.digits ≠ 0 ∧ d.digits % 10 = 0 then Digits.strip ⟨d.digits / 10, d.exp + 1⟩ fuel else d

/-- The shortest decimal that rounds to the number. Seventeen digits suffice. -/
def Binary.shortest (x : Binary) : Digits :=
  if x.m = 0 then ⟨0, 0⟩
  else
    match (List.range 17).findSome? fun n => x.pick? (x.scale - (n + 1 : Nat)) with
    | some d => d.strip 17
    | none => ⟨timesPow (timesPow x.m 2 x.q) 5 (-x.q), min x.q 0⟩

end RunParams.Decimal

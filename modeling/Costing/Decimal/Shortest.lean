import Costing.Decimal.Binary

/-! # The shortest decimal that reads back

A number is written with the fewest decimal digits that still identify it.  The reals that
round to a machine number form an interval; of the decimals in it those with the fewest digits
are candidates, and of these the nearest to the number is taken, the even one on a tie.

The search tries the grids of one digit, two digits and so on.  If a grid has a point in the
interval, one of the two neighbours of the number on that grid is such a point, so only these
two are tested. -/

namespace Costing.Decimal

/-- The decimal `digits · 10 ^ exponent`. -/
structure Scientific where
  digits : Nat
  exponent : Int
deriving DecidableEq, Repr

/-- Compares `a · 10 ^ i` with `n · 2 ^ j`. -/
def compareScaled (a : Nat) (i : Int) (n : Nat) (j : Int) : Ordering :=
  compare (a * Nat.pow 10 i.toNat * Nat.pow 2 (-j).toNat)
    (n * Nat.pow 2 j.toNat * Nat.pow 10 (-i).toNat)

/-- Whether a decimal lies among the reals that round to the absolute value of `b`.  The ends
of the interval belong to it exactly when the significand is even. -/
def Binary.readsBack (b : Binary) (d : Scientific) : Bool :=
  let low := if b.narrowBelow then 4 * b.significand - 1 else 4 * b.significand - 2
  let high := 4 * b.significand + 2
  let ends := b.significand % 2 == 0
  let atLow := compareScaled d.digits d.exponent low (b.exponent - 2)
  let atHigh := compareScaled d.digits d.exponent high (b.exponent - 2)
  (atLow == .gt || (ends && atLow == .eq)) && (atHigh == .lt || (ends && atHigh == .eq))

/-- The least power of ten above the absolute value of a number other than zero.  The binary
logarithm gives it up to a small error, so a few powers are tested. -/
def Binary.scale (b : Binary) : Int :=
  let estimate := Int.fdiv (((Nat.log2 b.significand : Int) + b.exponent) * 30103) 100000 - 1
  let above := fun i : Nat => compareScaled 1 (estimate + i) b.significand b.exponent == .gt
  estimate + (((List.range 5).find? above).getD 5 : Nat)

/-- The neighbours of the value on the grid `10 ^ exponent` that read back, the better first. -/
def Binary.onGrid? (b : Binary) (exponent : Int) : Option Scientific :=
  let num := b.significand * Nat.pow 2 b.exponent.toNat * Nat.pow 10 (-exponent).toNat
  let den := Nat.pow 2 (-b.exponent).toNat * Nat.pow 10 exponent.toNat
  let nearest := roundDiv num den
  let other := if nearest = num / den then nearest + 1 else num / den
  [nearest, other].findSome? fun n =>
    if b.readsBack ⟨n, exponent⟩ then some ⟨n, exponent⟩ else none

/-- Zeros at the end of the digits, at most `limit` of them, go into the exponent. -/
def Scientific.trim : Nat → Scientific → Scientific
  | 0, d => d
  | limit + 1, d =>
    if d.digits % 10 = 0 then Scientific.trim limit ⟨d.digits / 10, d.exponent + 1⟩ else d

/-- The shortest decimal of the absolute value.  Seventeen digits always suffice; the exact
value stands behind them so that every number has a text. -/
def Binary.shortest (b : Binary) : Scientific :=
  if b.significand = 0 then ⟨0, 0⟩
  else
    let found := (List.range 17).findSome? fun n => b.onGrid? (b.scale - (n + 1 : Nat))
    let exact : Scientific := ⟨b.scaled * Nat.pow 5 b.shift, -(b.shift : Int)⟩
    (found.getD exact).trim 1100

end Costing.Decimal

/-! # Numbers as the machine holds them

A finite machine number is a whole significand times a power of two.  `Binary.ofFloat?` reads
the two off the bits, and everything that has to be exact is computed from them with whole
numbers: the floor, the ceiling, whether the number is whole, its rounding to decimal places
and its shortest text. -/

namespace Costing.Decimal

/-- A finite machine number, `± significand · 2 ^ exponent`. -/
structure Binary where
  negative : Bool
  significand : Nat
  exponent : Int
  /-- The number below lies only half as far away as the number above. -/
  narrowBelow : Bool

/-- The parts of a finite number; there are none for the infinities and for what is no number. -/
def Binary.ofFloat? (x : Float) : Option Binary :=
  let bits := x.toBits
  let negative := bits >>> 63 == 1
  let biased := ((bits >>> 52) &&& 0x7FF).toNat
  let fraction := (bits &&& 0xFFFFFFFFFFFFF).toNat
  if biased = 0x7FF then none
  else if biased = 0 then some ⟨negative, fraction, -1074, false⟩
  else some ⟨negative, Nat.pow 2 52 + fraction, (biased : Int) - 1075, fraction == 0 && biased > 1⟩

namespace Binary

/-- The numerator of the absolute value over `2 ^ b.shift`. -/
def scaled (b : Binary) : Nat := b.significand * Nat.pow 2 b.exponent.toNat

/-- The exponent of the denominator of the absolute value. -/
def shift (b : Binary) : Nat := (-b.exponent).toNat

/-- The numerator of the value over `2 ^ b.shift`. -/
def signedScaled (b : Binary) : Int := if b.negative then -(b.scaled : Int) else b.scaled

/-- The greatest whole number that is not above the value. -/
def floor (b : Binary) : Int := Int.fdiv b.signedScaled (Nat.pow 2 b.shift)

/-- The least whole number that is not below the value. -/
def ceil (b : Binary) : Int := -Int.fdiv (-b.signedScaled) (Nat.pow 2 b.shift)

def isWhole (b : Binary) : Bool := b.scaled % Nat.pow 2 b.shift == 0

end Binary

/-! ## Rounding to decimal places

Amounts are rounded from the exact value that the machine holds, not from its written form:
2.675 is held as a little less and rounds to 2.67.  A value exactly between two candidates
goes to the one whose last digit is even. -/

/-- The whole number nearest to `num / den`; of two equally near ones the even one. -/
def roundDiv (num den : Nat) : Nat :=
  let q := num / den
  match compare (2 * (num % den)) den with
  | .lt => q
  | .gt => q + 1
  | .eq => if q % 2 = 0 then q else q + 1

/-- A value rounded to a number of decimal places.  The sign stays, also at zero; what is not
finite stays as it is. -/
def roundTo (places : Nat) (x : Float) : Float :=
  match Binary.ofFloat? x with
  | none => x
  | some b =>
    let quotient := roundDiv (b.scaled * Nat.pow 10 places) (Nat.pow 2 b.shift)
    let rounded := Float.ofScientific quotient true places
    if b.negative then -rounded else rounded

end Costing.Decimal

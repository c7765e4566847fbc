import Costing.Decimal.Shortest

/-! # The text of a number

A number is written with the digits of its shortest decimal.  Where its leading digit stands
between the fourth place after the point and the sixteenth before it, the text is positional
and a whole number keeps one zero behind the point; elsewhere the text is scientific, with a
signed exponent of at least two digits. -/

namespace Costing.Decimal

def zeros (count : Nat) : List Char := List.replicate count '0'

def digitChars (n : Nat) : List Char := Nat.toDigits 10 n

/-- A signed exponent of at least two digits. -/
def exponentChars (e : Int) : List Char :=
  let digits := digitChars e.natAbs
  (if e < 0 then '-' else '+') :: (zeros (2 - digits.length) ++ digits)

/-- The text of a decimal without its sign. -/
def Scientific.chars (d : Scientific) : List Char :=
  let digits := digitChars d.digits
  -- the place of the leading digit
  let lead := (digits.length : Int) + d.exponent - 1
  if -4 ≤ lead ∧ lead < 16 then
    if 0 ≤ d.exponent then digits ++ zeros d.exponent.toNat ++ ['.', '0']
    else if 0 ≤ lead then
      digits.take (lead.toNat + 1) ++ '.' :: digits.drop (lead.toNat + 1)
    else '0' :: '.' :: zeros ((-lead).toNat - 1) ++ digits
  else
    match digits with
    | [] => []
    | [first] => first :: 'e' :: exponentChars lead
    | first :: rest => first :: '.' :: rest ++ 'e' :: exponentChars lead

/-- The text of a number, the infinities and what is no number included. -/
def text (x : Float) : String :=
  match Binary.ofFloat? x with
  | some b => String.ofList ((if b.negative then ['-'] else []) ++ b.shortest.chars)
  | none => if x.isNaN then "nan" else if x < 0 then "-inf" else "inf"

end Costing.Decimal

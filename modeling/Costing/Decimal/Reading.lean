import Costing.Text.CharacterClass

/-! # Reading numbers

The text of a number is an optional sign followed by digits with an optional point and an
optional exponent, or by a word for infinity or for what is no number.  The digits may come
from any script, and a single low line may stand between two digits to group them.  White
space around the number is skipped. -/

namespace Costing.Decimal

/-- The number whose decimal digits are given, most significant first. -/
def ofDigits (digits : List Nat) : Nat := digits.foldl (fun n d => 10 * n + d) 0

/-- The machine number nearest to `digits · 10 ^ exponent`.  Beyond the range of the machine
the exponent alone decides, so that no huge power is computed. -/
def nearest (digits : List Nat) (exponent : Int) : Float :=
  let significand := ofDigits digits
  let lead := (digits.dropWhile (· == 0)).length + exponent
  if significand = 0 ∨ lead < -400 then 0
  else if lead > 400 then 1 / 0
  else if 0 ≤ exponent then Float.ofScientific (significand * Nat.pow 10 exponent.toNat) false 0
  else Float.ofScientific significand true exponent.natAbs

/-- The leading decimal digits of a text, and what follows them. -/
def spanDigits : List Char → List Nat × List Char
  | [] => ([], [])
  | c :: cs =>
    match Text.decimalDigit? c with
    | some d => (d :: (spanDigits cs).1, (spanDigits cs).2)
    | none => ([], c :: cs)

/-- A sign, if one stands first (`true` for minus), and what follows it. -/
def spanSign : List Char → Bool × List Char
  | '-' :: cs => (true, cs)
  | '+' :: cs => (false, cs)
  | cs => (false, cs)

/-- The exponent that makes up a whole text, zero for an empty one. -/
def exponent? : List Char → Option Int
  | [] => some 0
  | mark :: cs =>
    if mark = 'e' ∨ mark = 'E' then
      match spanSign cs with
      | (negative, rest) =>
        match spanDigits rest with
        | ([], _) => none
        | (digits, []) => some (if negative then -(ofDigits digits : Int) else ofDigits digits)
        | (_, _ :: _) => none
    else none

/-- The digits behind the point, if a point stands first, and what follows them. -/
def spanFraction : List Char → List Nat × List Char
  | '.' :: cs => spanDigits cs
  | cs => ([], cs)

/-- The value of digits with an optional point and an optional exponent. -/
def unsigned? (cs : List Char) : Option Float :=
  match spanDigits cs with
  | (whole, afterWhole) =>
    match spanFraction afterWhole with
    | (fraction, afterFraction) =>
      if whole.isEmpty && fraction.isEmpty then none
      else (exponent? afterFraction).map fun e => nearest (whole ++ fraction) (e - fraction.length)

/-- The words for infinity and for what is no number, in any case. -/
def word? (cs : List Char) : Option Float :=
  match String.ofList (cs.map Char.toLower) with
  | "inf" | "infinity" => some (1 / 0)
  | "nan" => some (0 / 0)
  | _ => none

/-- The value of a number with an optional sign. -/
def signed? (cs : List Char) : Option Float :=
  match spanSign cs with
  | (negative, rest) =>
    ((unsigned? rest).or (word? rest)).map fun x => if negative then -x else x

/-- A text without the low lines that group its digits, after a character that is a digit or
not.  There is none when a low line stands elsewhere than between two digits. -/
def ungroup? : Bool → List Char → Option (List Char)
  | _, [] => some []
  | afterDigit, '_' :: cs =>
    match cs with
    | [] => none
    | c :: _ => if afterDigit && Text.isDecimalDigit c then ungroup? false cs else none
  | _, c :: cs => (ungroup? (Text.isDecimalDigit c) cs).map (c :: ·)

/-- White space that may surround a number: all blank characters but the four separators. -/
def isPadding (c : Char) : Bool := Text.isBlank c && !(28 ≤ c.toNat && c.toNat ≤ 31)

/-- A text without the padding at either end. -/
def unpad (cs : List Char) : List Char :=
  ((cs.dropWhile isPadding).reverse.dropWhile isPadding).reverse

def read? (s : String) : Option Float := (ungroup? false (unpad s.toList)).bind signed?

end Costing.Decimal

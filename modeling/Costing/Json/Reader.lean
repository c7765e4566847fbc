import Costing.Json
import Costing.Decimal.Reading

/-! # Reading JSON

`Json.read?` reads a whole document.  A number without point and exponent is whole; any other
is the nearest machine number.  The words `NaN`, `Infinity` and `-Infinity` are read as
numbers too.  Half of a surrogate pair that stands alone is replaced by U+FFFD. -/

namespace Costing.Json.Reader

/-- Blank space between the parts of a document. -/
def isSpace (c : Char) : Bool := c == ' ' || c == '\n' || c == '\r' || c == '\t'

/-- What follows the blank space at the front. -/
def skip (cs : List Char) : List Char := cs.dropWhile isSpace

/-- The value of a digit in base sixteen. -/
def hexDigit? (c : Char) : Option Nat :=
  if c.isDigit then some (c.toNat - '0'.toNat)
  else if 'a' ≤ c ∧ c ≤ 'f' then some (c.toNat - 'a'.toNat + 10)
  else if 'A' ≤ c ∧ c ≤ 'F' then some (c.toNat - 'A'.toNat + 10)
  else none

/-- The number that four digits in base sixteen stand for. -/
def unit? (a b c d : Char) : Option Nat := do
  let a ← hexDigit? a
  let b ← hexDigit? b
  let c ← hexDigit? c
  let d ← hexDigit? d
  pure (((a * 16 + b) * 16 + c) * 16 + d)

/-- The character of a unit that stands alone. -/
def ofUnit (u : Nat) : Char := if u < 0xD800 ∨ 0xE000 ≤ u then Char.ofNat u else '\uFFFD'

def ofPair? (high low : Nat) : Option Char :=
  if 0xD800 ≤ high ∧ high < 0xDC00 ∧ 0xDC00 ≤ low ∧ low < 0xE000 then
    some (Char.ofNat (0x10000 + (high - 0xD800) * 0x400 + (low - 0xDC00)))
  else none

/-- The character that a letter behind a backslash stands for. -/
def letter? : Char → Option Char
  | '"' => some '"'
  | '\\' => some '\\'
  | '/' => some '/'
  | 'b' => some '\x08'
  | 'f' => some '\x0c'
  | 'n' => some '\n'
  | 'r' => some '\r'
  | 't' => some '\t'
  | _ => none

/-- The characters up to the closing quote, and what follows it. -/
def textBody : List Char → Option (List Char × List Char)
  | [] => none
  | '"' :: cs => some ([], cs)
  | '\\' :: 'u' :: a :: b :: c :: d :: '\\' :: 'u' :: e :: f :: g :: h :: cs => do
    let first ← unit? a b c d
    let second ← unit? e f g h
    match ofPair? first second with
    | some p => let (rest, after) ← textBody cs; pure (p :: rest, after)
    | none =>
      let (rest, after) ← textBody ('\\' :: 'u' :: e :: f :: g :: h :: cs)
      pure (ofUnit first :: rest, after)
  | '\\' :: 'u' :: a :: b :: c :: d :: cs => do
    let u ← unit? a b c d
    let (rest, after) ← textBody cs
    pure (ofUnit u :: rest, after)
  | '\\' :: l :: cs => do
    let c ← letter? l
    let (rest, after) ← textBody cs
    pure (c :: rest, after)
  | c :: cs => do
    let (rest, after) ← textBody cs
    pure (c :: rest, after)

/-- The digits at the front, and what follows them. -/
def digits (cs : List Char) : List Nat × List Char :=
  ((cs.takeWhile Char.isDigit).map (·.toNat - '0'.toNat), cs.dropWhile Char.isDigit)

/-- The exponent at the front, if one stands there, and what follows it. -/
def exponent : List Char → Option Int × List Char
  | mark :: cs =>
    if mark = 'e' ∨ mark = 'E' then
      match Decimal.spanSign cs with
      | (negative, rest) =>
        match digits rest with
        | (ds, after) =>
          let n := Decimal.ofDigits ds
          (some (if negative then -(n : Int) else n), after)
    else (none, mark :: cs)
  | [] => (none, [])

/-- The number at the front, and what follows it. -/
def number? (cs : List Char) : Option (Json × List Char) :=
  match Decimal.spanSign cs with
  | (negative, unsigned) =>
    match digits unsigned with
    | ([], _) => none
    | (intDigits, afterWhole) =>
      match Decimal.spanFraction afterWhole with
      | (fraction, afterFraction) =>
        match exponent afterFraction with
        | (e?, after) =>
          if fraction.isEmpty && e?.isNone then
            let n := Decimal.ofDigits intDigits
            some (.whole (if negative then -(n : Int) else n), after)
          else
            let x := Decimal.nearest (intDigits ++ fraction) (e?.getD 0 - fraction.length)
            some (.real (if negative then -x else x), after)

/-- The word at the front, and what follows it. -/
def word? (cs : List Char) : Option (Json × List Char) :=
  match String.ofList (cs.takeWhile fun c => c.isAlpha || c == '-') with
  | "null" => some (.null, cs.drop 4)
  | "true" => some (.flag true, cs.drop 4)
  | "false" => some (.flag false, cs.drop 5)
  | "NaN" => some (.real (0 / 0), cs.drop 3)
  | "Infinity" => some (.real (1 / 0), cs.drop 8)
  | "-Infinity" => some (.real (-1 / 0), cs.drop 9)
  | _ => none

mutual

/-- The document at the front, and what follows it; `room` bounds the steps. -/
def value? (room : Nat) (cs : List Char) : Option (Json × List Char) :=
  match room with
  | 0 => none
  | room + 1 =>
    match skip cs with
    | '"' :: rest => (textBody rest).map fun (s, after) => (.text (String.ofList s), after)
    | '[' :: rest =>
      match skip rest with
      | ']' :: after => some (.list [], after)
      | rest => (items? room rest).map fun (items, after) => (.list items, after)
    | '\x7b' :: rest =>
      match skip rest with
      | '\x7d' :: after => some (.object [], after)
      | rest => (entries? room rest).map fun (entries, after) => (.object entries, after)
    | rest => (word? rest).or (number? rest)

/-- The items of a list up to its closing bracket, and what follows it. -/
def items? (room : Nat) (cs : List Char) : Option (List Json × List Char) :=
  match room with
  | 0 => none
  | room + 1 => do
    let (first, rest) ← value? room cs
    match skip rest with
    | ',' :: rest =>
      let (others, after) ← items? room rest
      pure (first :: others, after)
    | ']' :: after => pure ([first], after)
    | _ => none

/-- The entries of an object up to its closing brace, and what follows it. -/
def entries? (room : Nat) (cs : List Char) : Option (List (String × Json) × List Char) :=
  match room with
  | 0 => none
  | room + 1 =>
    match skip cs with
    | '"' :: rest => do
      let (key, rest) ← textBody rest
      match skip rest with
      | ':' :: rest =>
        let (first, rest) ← value? room rest
        match skip rest with
        | ',' :: rest =>
          let (others, after) ← entries? room rest
          pure ((String.ofList key, first) :: others, after)
        | '\x7d' :: after => pure ([(String.ofList key, first)], after)
        | _ => none
      | _ => none
    | _ => none

end

end Reader

/-- The document that a text holds.  Every step of the reading consumes a character or is
followed by one that does, so twice the length bounds the steps. -/
def read? (s : String) : Option Json :=
  let cs := s.toList
  match Reader.value? (2 * cs.length + 2) cs with
  | some (doc, rest) => if (Reader.skip rest).isEmpty then some doc else none
  | none => none

end Costing.Json

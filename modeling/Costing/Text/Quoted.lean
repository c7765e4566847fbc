import Costing.Text.Printable

/-! # Quoted text

Texts named in messages stand in quotes: single quotes, or double quotes when the text holds
a single quote and no double one.  The quote and the backslash are marked by a backslash, line
feed, carriage return and tab have letters, and other unprintable characters are written by
their number in base sixteen, with the shortest of three widths. -/

namespace Costing.Text

/-- The digits of a number in base sixteen, to a fixed width. -/
def hexDigits : Nat → Nat → List Char
  | 0, _ => []
  | width + 1, n => hexDigits width (n / 16) ++ [Nat.digitChar (n % 16)]

/-- How an unprintable character is written: two, four or eight digits. -/
def numbered (c : Char) : List Char :=
  if c.toNat < 0x100 then '\\' :: 'x' :: hexDigits 2 c.toNat
  else if c.toNat < 0x10000 then '\\' :: 'u' :: hexDigits 4 c.toNat
  else '\\' :: 'U' :: hexDigits 8 c.toNat

/-- How a character is written between quotes of the given kind. -/
def quotedChar (quote : Char) (c : Char) : List Char :=
  if c = quote ∨ c = '\\' then ['\\', c]
  else if c = '\n' then ['\\', 'n']
  else if c = '\r' then ['\\', 'r']
  else if c = '\t' then ['\\', 't']
  else if isPrintable c then [c]
  else numbered c

/-- Single quotes, unless they would have to be marked and double ones would not. -/
def quoteFor (cs : List Char) : Char :=
  if cs.contains '\'' && !cs.contains '"' then '"' else '\''

def quoted (s : String) : String :=
  let quote := quoteFor s.toList
  String.ofList (quote :: s.toList.flatMap (quotedChar quote) ++ [quote])

end Costing.Text

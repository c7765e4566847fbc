import Costing.Json
import Costing.Decimal.Notation

/-! # Writing JSON

`Json.write` writes a document on one line.  A machine number is written with its shortest
digits, and as a text if it is infinite or no number, for which JSON has no numerals. -/

namespace Costing.Json

namespace Writer

def escaped (c : Char) : List Char :=
  if c = '"' then ['\\', '"']
  else if c = '\\' then ['\\', '\\']
  else if c = '\n' then ['\\', 'n']
  else if c.toNat < 0x20 then
    ['\\', 'u', '0', '0', Nat.digitChar (c.toNat / 16), Nat.digitChar (c.toNat % 16)]
  else [c]

def quoted (s : String) : String := String.ofList ('"' :: s.toList.flatMap escaped ++ ['"'])

def real (x : Float) : String :=
  if x.isFinite then Decimal.text x else quoted (Decimal.text x)

def commaList (parts : List String) : String := String.intercalate "," parts

end Writer

mutual

def write : Json → String
  | .null => "null"
  | .flag b => if b then "true" else "false"
  | .whole n => toString n
  | .real x => Writer.real x
  | .text s => Writer.quoted s
  | .list items => "[" ++ Writer.commaList (writeItems items) ++ "]"
  | .object entries => "\x7b" ++ Writer.commaList (writeEntries entries) ++ "\x7d"

/-- The texts of the items of a list. -/
def writeItems : List Json → List String
  | [] => []
  | item :: rest => write item :: writeItems rest

/-- The texts of the entries of an object. -/
def writeEntries : List (String × Json) → List String
  | [] => []
  | (key, value) :: rest => (Writer.quoted key ++ ":" ++ write value) :: writeEntries rest

end

end Costing.Json

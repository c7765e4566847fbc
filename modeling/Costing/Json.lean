/-! # JSON documents

The requests and answers of the engine are JSON documents.  A document keeps what a request
shows: whether a number is written as a whole number or with a point or an exponent, and the
order of the entries of an object. -/

namespace Costing

/-- A JSON document. -/
inductive Json where
  | null
  | flag (value : Bool)
  | whole (value : Int)
  | real (value : Float)
  | text (value : String)
  | list (items : List Json)
  | object (entries : List (String × Json))
deriving Inhabited

namespace Json

/-- The entry of an object; of several with one key the last counts. -/
def entry? (key : String) : Json → Option Json
  | .object entries => (entries.reverse.find? fun e => e.1 == key).map (·.2)
  | _ => none

/-- A text, or `null` where there is none. -/
def ofText? : Option String → Json
  | some s => .text s
  | none => .null

/-- A number, or `null` where there is none. -/
def ofReal? : Option Float → Json
  | some x => .real x
  | none => .null

def ofTexts (ss : List String) : Json := .list (ss.map .text)

end Json

end Costing

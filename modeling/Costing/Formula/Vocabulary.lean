import Costing.Formula.Scope
import Costing.Formula.Suggestion

/-! # The names known to a formula

Before a formula has any values, a vocabulary says which names it may use: the fields of its
module, the outputs that it sees, further names that will have values, and the price book. -/

namespace Costing.Formula

/-- The names that a formula may use. -/
structure Vocabulary where
  fields : Table String Field
  book : Pricebook
  /-- The outputs by each name under which they can be referred to. -/
  outputs : Table String Output
  /-- The names that will have values, those of fields and outputs among them. -/
  available : List String

namespace Vocabulary

/-- The outputs under their keys and, if `bare`, under their own names too. -/
def outputEntries (outputs : List Output) (bare : Bool) : List (String × Output) :=
  outputs.flatMap fun o => if bare then [(o.key, o), (o.name.text, o)] else [(o.key, o)]

def ofLists (available : List String) (fields : List Field) (outputs : List Output)
    (bare : Bool) (book : Pricebook) : Vocabulary :=
  let fields : Table String Field := .indexBy (·.name.text) fields
  let outputs : Table String Output := .ofList (outputEntries outputs bare)
  ⟨fields, book, outputs, available ++ fields.keys ++ outputs.keys⟩

def candidates (v : Vocabulary) : List String :=
  Formula.candidates v.available v.fields.values v.book.catalog v.book.functions.values

end Vocabulary

end Costing.Formula

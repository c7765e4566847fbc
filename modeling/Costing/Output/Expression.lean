import Costing.Formula.Validation
import Costing.Output.Dependency

/-! # Validation of output expressions

The expression of an output may refer to the fields of its module and to the outputs before it,
to these with or without their prefix. -/

namespace Costing

/-- The name in an expression that refers to the output at a position or to a later one, and
the name of that output.  Names of fields and of properties refer to no output. -/
def forwardReference? (fields : List Field) (outputs : List Output) (position : Nat)
    (expression : String) : Option (String × String) :=
  let isField := fun n => (fields.map (·.name.folded)).contains (Text.lower n)
  let isProperty := fun n => 0 < Formula.Token.points n && !hasOutputPrefix n
  (referencedNames expression).findSome? fun n =>
    if isProperty n || isField n then none
    else match outputIndex? outputs n with
      | some i => if position ≤ i.val then some (outputs[i].name.text, n) else none
      | none => none

/-- The verdict on the expression of the output at a position.  Beyond the last position, all
outputs stand before it. -/
def validateExpressionAt (fields : List Field) (outputs : List Output) (book : Pricebook)
    (position : Nat) (expression : String) : Formula.Verdict :=
  if Text.isBlankText expression then .blank
  else match forwardReference? fields outputs position expression with
    | some (output, name) => .refused (.unknownName (.outputNotEarlier output name)) []
    | none =>
      (Formula.Vocabulary.ofLists (fields.map (·.name.text)) fields (outputs.take position) true
        book).validate expression

/-- The verdict on the expression of the output with an identifier; an unknown identifier or
none means an output that is yet to be added. -/
def validateExpression (fields : List Field) (outputs : List Output) (book : Pricebook)
    (outputId : Option String) (expression : String) : Formula.Verdict :=
  let position := match outputId with
    | some id => outputs.findIdx (·.id == id)
    | none => outputs.length
  validateExpressionAt fields outputs book position expression

end Costing

import Costing.Formula.Tree
import Costing.Formula.Vocabulary
import Costing.Units

/-! # Unit categories of formulas

A formula measures something if its names do: the category of an expression follows from those
of its parts by the algebra of categories.  Sums of two different measures and quotients
without a meaning are mismatches.  A category that is an empty text counts as not stated,
except that a divisor with an empty category leaves the quotient without any. -/

namespace Costing.Formula

/-- The category of an operation on operands of two categories.  There is no answer if the
operands do not go together; the answer `none` is an expression without a category. -/
def Operator.category? (op : Operator) (left right : Option String) : Option (Option String) :=
  match op, Units.stated left, Units.stated right with
  | .add, some a, some b | .subtract, some a, some b =>
    if Units.isUnitless a then some (some b)
    else if a = b || Units.isUnitless b then some (some a)
    else none
  | .add, none, some _ | .subtract, none, some _ => some right
  | .add, _, none | .subtract, _, none => some left
  | .multiply, some a, some b => some (some (Units.multiply a b))
  | .multiply, some _, none => some left
  | .multiply, none, _ => some right
  | .divide, some a, some b => (Units.divide? a b).map some
  | .divide, _, _ => some (if right.isNone then left else none)
  | .power, _, _ => some none

/-- The mismatch of two operands that do not go together. -/
def mismatch (op : Operator) (a b : String) (left right : Tree) : UnitMismatch :=
  let source := (Tree.binary op left right).source
  match op with
  | .divide =>
    if Units.isUnitless a then .unitlessBy left.source b right.source source
    else .quotient a left.source b right.source source
  | _ => .sum (op == .add) a left.source b right.source source

namespace Vocabulary

/-- The category of a name: that of an output, a numeric field or a property. -/
def nameCategory (v : Vocabulary) (name : String) : Option String :=
  match v.outputs.get? name with
  | some o => o.unitCategory
  | none =>
    match v.fields.get? name with
    | some f => if f.isNumeric then f.unitCategory else none
    | none =>
      match splitName name with
      | (_, none) => none
      | (base, some property) =>
        match (v.fields.get? base).filter (·.isCatalog) with
        | some f => v.book.catalog.fieldPropertyCategory? f property
        | none => (v.book.catalog.find? base).bind fun (_, item) =>
            (item.property? property).bind (·.unitCategory)

mutual

/-- The category of an expression, or the first mismatch in it. -/
def category (v : Vocabulary) : Tree → Except UnitMismatch (Option String)
  | .number _ => .ok none
  | .name n => .ok (v.nameCategory n)
  | .negate operand => v.category operand
  | .binary op left right => do
    let a ← v.category left
    let b ← v.category right
    match op.category? a b with
    | some c => pure c
    | none => throw (mismatch op (a.getD "") (b.getD "") left right)
  | .call _ args => do
    v.checkCategories args
    pure none

/-- Looks for a mismatch in arguments, from left to right. -/
def checkCategories (v : Vocabulary) : List Tree → Except UnitMismatch Unit
  | [] => .ok ()
  | arg :: rest => do
    let _ ← v.category arg
    v.checkCategories rest

end

end Vocabulary

end Costing.Formula

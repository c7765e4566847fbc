import Costing.Output.Expression

/-! # Validation of modules -/

namespace Costing

/-- The verdicts on the formula of a module and on the expressions of its outputs, by name. -/
structure ModuleVerdict where
  formula : Formula.Verdict
  outputs : Table String Formula.Verdict

namespace ModuleVerdict

def isAccepted (v : ModuleVerdict) : Bool :=
  v.formula.isAccepted && v.outputs.values.all (·.isAccepted)

end ModuleVerdict

namespace Module

/-- The names that the formula of a module may use. -/
def vocabulary (m : Module) (book : Pricebook) : Formula.Vocabulary :=
  .ofLists (Formula.availableNames m.fields m.outputs) m.fields m.outputs false book

/-- Validates the expressions of the outputs and the formula of a module. -/
def validate (m : Module) (book : Pricebook) : ModuleVerdict where
  formula := (m.vocabulary book).validate m.formula
  outputs := .ofList (m.outputs.map fun o =>
    (o.name.text, validateExpression m.fields m.outputs book (some o.id) o.expression))

end Module

end Costing

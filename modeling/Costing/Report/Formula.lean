import Costing.Formula.Analysis
import Costing.ModuleCheck
import Costing.Naming
import Costing.Report.Model

/-! # Writing verdicts and analyses as documents -/

namespace Costing.Report

def verdictParts (valid : Bool) (error kind subject : Option String)
    (warnings suggestions : List String) : Json :=
  .object [("valid", .flag valid), ("error", .ofText? error), ("error_kind", .ofText? kind),
    ("subject", .ofText? subject), ("warnings", .ofTexts warnings),
    ("suggestions", .ofTexts suggestions)]

def verdict : Formula.Verdict → Json
  | .accepted warnings => verdictParts true none none none (warnings.map (·.message)) []
  | .refused cause suggestions =>
    verdictParts false (some cause.message) (some cause.kind.word) cause.subject [] suggestions
  | .blank => verdictParts false (some "Expression is required") none none [] []

def nameVerdict (problem : Option NameProblem) : Json :=
  verdictParts problem.isNone (problem.map (·.message)) none none [] []

def moduleVerdict (v : ModuleVerdict) : Json :=
  .object [("valid", .flag v.isAccepted), ("formula", verdict v.formula),
    ("computed_outputs", table verdict v.outputs)]

def propertyReference (r : Formula.PropertyReference) : Json :=
  .object [("full", .text r.name), ("base", .text r.base), ("property", .text r.property)]

def functionCall (c : Formula.FunctionCall) : Json :=
  .object [("name", .text c.function),
    ("arity", match c.count with | some n => .whole n | none => .null)]

def analysis (a : Formula.Analysis) : Json :=
  .object [("variables", .ofTexts a.values), ("computed_outputs", .ofTexts a.outputs),
    ("unknown_variables", .ofTexts a.unknown),
    ("field_property_refs", .list (a.fieldProperties.map propertyReference)),
    ("material_property_refs", .list (a.materialProperties.map propertyReference)),
    ("labor_property_refs", .list (a.laborProperties.map propertyReference)),
    ("math_functions", .ofTexts a.math), ("function_calls", .list (a.calls.map functionCall))]

end Costing.Report

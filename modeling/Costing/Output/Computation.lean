import Costing.Decimal.Binary
import Costing.Formula.Evaluation

/-! # Computing outputs

The outputs of a module are computed in their order.  An output sees the values of the fields
and of the outputs before it.  One that fails has no value for those behind it, and they are
computed all the same. -/

namespace Costing

/-- What came of an output: its value, rounded, or the fault that it ran into. -/
structure OutputResult where
  output : Output
  result : Except Fault Float

/-- The values that results offer to later expressions, each under the key and under the name
of its output. -/
def visibleValues (results : List OutputResult) : Table String FieldInput :=
  .ofList (results.flatMap fun r =>
    match r.result with
    | .ok x => [(r.output.key, .given (.number x)), (r.output.name.text, .given (.number x))]
    | .error _ => [])

/-- The value or fault of an expression behind other outputs. -/
def computeOutput (base : Formula.Scope) (done : List OutputResult) (o : Output) :
    Except Formula.Crash OutputResult := do
  let result ← (Formula.evaluate (base.extend (visibleValues done)) o.expression).settled
  pure ⟨o, result.map (Decimal.roundTo Settings.outputDecimals)⟩

/-- The results of outputs behind those that are done, all in order. -/
def computeBehind (base : Formula.Scope) (done : List OutputResult) :
    List Output → Except Formula.Crash (List OutputResult)
  | [] => .ok done
  | o :: rest => do
    let r ← computeOutput base done o
    computeBehind base (done ++ [r]) rest

/-- The results of the outputs of a module for the inputs of its fields. -/
def Module.computeOutputs (m : Module) (book : Pricebook) (inputs : Table String FieldInput) :
    Except Formula.Crash (List OutputResult) :=
  computeBehind (.ofInputs book m.fields inputs) [] m.outputs

/-- The values among results, by the keys of the outputs. -/
def outputValues (results : List OutputResult) : Table String Float :=
  .ofList (results.filterMap fun r =>
    match r.result with
    | .ok x => some (r.output.key, x)
    | .error _ => none)

/-- The faults among results, by the names of the outputs. -/
def outputFaults (results : List OutputResult) : Table String FaultReport :=
  .ofList (results.filterMap fun r =>
    match r.result with
    | .ok _ => none
    | .error f => some (r.output.name.text, f.report))

end Costing

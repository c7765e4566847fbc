import Costing.Output.Computation

/-! # The cost of an instance

The outputs of the module are computed first, then every required field must have a value, and
then the formula of the module is evaluated with the values of the fields and outputs.  What
goes wrong is recorded as the fault of this one instance. -/

namespace Costing

/-- What is known about the cost of an instance: the cost or a fault, and the values and faults
of its outputs. -/
structure InstanceCost where
  instanceId : String
  cost : Option Float
  fault : Option FaultReport
  values : Table String Float
  faults : Table String FaultReport

namespace InstanceCost

/-- Whether there is a cost and no fault. -/
def isOk (c : InstanceCost) : Bool := c.fault.isNone && c.cost.isSome

/-- The cost of an instance that cannot be computed at all. -/
def ofFault (instanceId : String) (fault : FaultReport) : InstanceCost :=
  ⟨instanceId, none, some fault, .empty, .empty⟩

end InstanceCost

/-- Whether a field has a default that stands in for a missing value. -/
def Field.hasDefault (f : Field) : Bool :=
  match f.default with
  | .blank => false
  | .text s => s != ""
  | _ => true

/-- What a required field lacks, given its input. -/
def Field.requirement? (f : Field) (input : FieldInput) : Option Cause :=
  match input with
  | .broken reason _ => some (.brokenLink (.requiredField f.label reason f.name.text))
  | .given value =>
    if value.isBlank && !f.hasDefault then
      some (.missingInput (.requiredBlank f.label f.name.text))
    else none

/-- The first requirement that inputs do not meet. -/
def Module.unmet? (m : Module) (inputs : Table String FieldInput) : Option Cause :=
  (m.fields.filter (·.required)).findSome? fun f =>
    f.requirement? ((inputs.get? f.name.text).getD (.given .blank))

namespace Module

/-- The scope of the formula of a module: its fields, and its outputs by their keys. -/
def formulaScope (m : Module) (book : Pricebook) (inputs : Table String FieldInput)
    (outputs : Table String Float) : Formula.Scope :=
  (Formula.Scope.ofInputs book m.fields inputs).extend
    (outputs.mapValues fun _ x => .given (.number x))

/-- The value of the formula of a module, given the values of its outputs. -/
def evaluateFormula (m : Module) (book : Pricebook) (inputs : Table String FieldInput)
    (outputs : Table String Float) : Except Formula.Crash (Except Fault Float) :=
  match m.unmet? inputs with
  | some cause => .ok (.error { cause := cause })
  | none => (Formula.evaluate (m.formulaScope book inputs outputs) m.formula).settled

/-- The cost of an instance of a module with the given inputs. -/
def cost (m : Module) (book : Pricebook) (inputs : Table String FieldInput)
    (instanceId : String) : Except Formula.Crash InstanceCost := do
  let results ← m.computeOutputs book inputs
  let outputs := outputValues results
  let outcome ← m.evaluateFormula book inputs outputs
  let faults := outputFaults results
  pure (match outcome with
    | .ok x => ⟨instanceId, some x, none, outputs, faults⟩
    | .error fault => ⟨instanceId, none, some fault.report, outputs, faults⟩)

end Module

end Costing

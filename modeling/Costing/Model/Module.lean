import Costing.Model.Field
import Costing.Table

/-! # Modules, instances and shared functions

A calculation module is a reusable piece of an estimate.  A workspace places instances of
modules side by side; a field of an instance may draw its value through a link from a field or
computed output of another instance.  Shared functions are formulas with parameters that every
formula may call. -/

namespace Costing

/-- How many arguments a function takes: at least `least`, and at most `most` if there is a
bound. -/
structure Formula.Arity where
  least : Nat
  most : Option Nat
deriving DecidableEq

namespace Formula.Arity

def accepts (a : Arity) (count : Nat) : Bool :=
  decide (a.least ≤ count) && (match a.most with | some m => decide (count ≤ m) | none => true)

def text (a : Arity) : String :=
  match a.most with
  | none => s!"at least {a.least} argument(s)"
  | some m =>
    if a.least = m then s!"{a.least} argument(s)" else s!"{a.least} to {m} arguments"

end Formula.Arity

/-- A parameter of a shared function. -/
structure Parameter where
  name : VariableName
  label : String
  unitSymbol : Option String
  unitCategory : Option String
  required : Bool

/-- A shared function.  No two parameters have one name, case aside. -/
structure SharedFunction where
  id : Option String
  name : VariableName
  description : Option String
  category : Option String
  parameters : List Parameter
  formula : String
  distinct : ((parameters.map (·.name)).map VariableName.folded).Nodup

/-- How many arguments a shared function takes: one for each required parameter at least, one
for each parameter at most. -/
def SharedFunction.arity (f : SharedFunction) : Formula.Arity :=
  ⟨(f.parameters.filter (·.required)).length, some f.parameters.length⟩

def declaredNames (fields : List Field) (outputs : List Output) : List VariableName :=
  fields.map (·.name) ++ outputs.map (·.name)

/-- A calculation module.  No two fields or outputs have one name, case aside. -/
structure Module where
  id : String
  name : String
  description : Option String
  category : Option String
  fields : List Field
  outputs : List Output
  formula : String
  distinct : ((declaredNames fields outputs).map VariableName.folded).Nodup

namespace Module

def field? (m : Module) (name : String) : Option Field :=
  m.fields.find? (·.name.text == name)

/-- The output with a name, given with or without the prefix of outputs. -/
def output? (m : Module) (name : String) : Option Output :=
  m.outputs.find? (·.name.text == dropOutputPrefix name)

end Module

/-- A field or computed output of an instance. -/
structure Place where
  instanceId : String
  /-- The name of a field, or of an output behind its prefix. -/
  name : String
deriving DecidableEq

def Place.label (p : Place) : String := p.instanceId ++ "." ++ p.name

/-- A use of a module in a workspace. -/
structure Instance where
  id : String
  moduleId : String
  values : Table String FieldValue
  /-- The places from which linked fields draw their values, by field. -/
  links : Table String Place
  calculatedCost : Option Float

/-- The stored values of an instance as inputs. -/
def Instance.storedInputs (i : Instance) : Table String FieldInput :=
  i.values.mapValues fun _ v => .given v

/-- A line of a quote: what an instance held and cost when it was added. -/
structure LineItem where
  id : String
  moduleId : String
  moduleName : String
  values : Table String FieldValue
  summary : String
  cost : Float

end Costing

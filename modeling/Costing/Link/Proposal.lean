import Costing.CycleSearch
import Costing.Fault
import Costing.Output.Dependency
import Costing.Workspace

/-! # Proposed links

A link is stored only if both its ends exist and go together, and if it closes no cycle of
links and of outputs that depend on fields.  A proposed link takes the place of any link that
its field already has. -/

namespace Costing

/-! ## What may be linked to what

Numbers draw from numbers and from outputs, booleans from booleans, dropdowns from dropdowns of
the same mode.  Where both ends state a unit category, the categories agree.  Material and labor
fields are never linked. -/

/-- Whether two categories agree, or one of them is not stated. -/
def categoriesAgree (a b : Option String) : Bool :=
  match Units.stated a, Units.stated b with
  | some a, some b => a == b
  | _, _ => true

/-- Whether a field may draw its value from a target. -/
def compatible (source : Field) (target : LinkTarget) : Bool :=
  let unitsAgree := categoriesAgree source.unitCategory target.unitCategory
  match source.kind, target with
  | .number, .output _ => unitsAgree
  | .number, .field t => t.kind == .number && unitsAgree
  | .boolean, .field t => t.kind == .boolean
  | .dropdown, .field t =>
    t.kind == .dropdown && source.dropdownMode == t.dropdownMode && unitsAgree
  | _, _ => false

/-! ## Cycles that a link would close -/

namespace Workspace

/-- The links of an instance and the dependencies of its outputs, as edges. -/
def edgesOf (w : Workspace) (i : Instance) : List (Place × Place) :=
  let links := i.links.entries.map fun (name, target) => (Place.mk i.id name, target)
  let dependencies := match w.moduleTable.get? i.moduleId with
    | none => []
    | some m => m.outputs.flatMap fun o =>
        (m.dependencies o.name.text).map fun f => (Place.mk i.id o.key, Place.mk i.id f)
  links ++ dependencies

def edges (w : Workspace) : List (Place × Place) := w.instances.flatMap w.edgesOf

/-- The edges once a place draws from another one and from nothing else. -/
def edgesWith (w : Workspace) (source target : Place) : List (Place × Place) :=
  (source, target) :: w.edges.filter fun e => e.1 ≠ source

/-- The first cycle that a search from the source of a proposed link meets. -/
def cycleWith? (w : Workspace) (source target : Place) : Option (List Place) :=
  cycleFrom? (w.edgesWith source target) source

end Workspace

def cycleText (cycle : List Place) : String := String.intercalate " → " (cycle.map (·.label))

/-! ## The check of a proposal -/

/-- Why a proposed link is refused. -/
inductive LinkRefusal where
  | toItself
  | noSourceInstance | noTargetInstance | noModule
  | noSourceField | noTargetField | noTargetOutput
  | incompatible (source : Field) (target : LinkTarget)
  | circular (cycle : List Place)

namespace LinkRefusal

/-- The two categories of units that differ, in parentheses. -/
def unitNote (source target : Option String) : String :=
  match Units.stated source, Units.stated target with
  | some a, some b => if a = b then "" else " (" ++ a ++ " vs " ++ b ++ ")"
  | _, _ => ""

def message : LinkRefusal → String
  | .toItself => "Cannot link field to itself"
  | .noSourceInstance => "Source module instance not found"
  | .noTargetInstance => "Target module instance not found"
  | .noModule => "Module definition not found"
  | .noSourceField => "Source field not found"
  | .noTargetField => "Target field not found"
  | .noTargetOutput => "Target computed output not found"
  | .incompatible source target =>
    "Cannot link " ++ source.kind.word ++ " field to " ++
      (match target with
        | .output _ => "computed output"
        | .field t => t.kind.word ++ " field") ++
      unitNote source.unitCategory target.unitCategory
  | .circular cycle => "Circular reference detected: " ++ cycleText cycle

end LinkRefusal

namespace Workspace

/-- The ends of a proposed link, or why one of them is missing. -/
def linkEnds (w : Workspace) (source target : Place) : Except LinkRefusal (Field × LinkTarget) :=
  match w.firstInstance? source.instanceId, w.firstInstance? target.instanceId with
  | none, _ => .error .noSourceInstance
  | some _, none => .error .noTargetInstance
  | some i, some j =>
    match w.moduleTable.get? i.moduleId, w.moduleTable.get? j.moduleId with
    | some m, some n =>
      match m.field? source.name, n.target? target.name with
      | none, _ => .error .noSourceField
      | some f, some t => .ok (f, t)
      | some _, none =>
        .error (if hasOutputPrefix target.name then .noTargetOutput else .noTargetField)
    | _, _ => .error .noModule

def checkLink (w : Workspace) (source target : Place) : Except LinkRefusal Unit :=
  if source = target then .error .toItself
  else match w.linkEnds source target with
    | .error refusal => .error refusal
    | .ok (f, t) =>
      if compatible f t then
        match w.cycleWith? source target with
        | some cycle => .error (.circular cycle)
        | none => .ok ()
      else .error (.incompatible f t)

end Workspace

end Costing

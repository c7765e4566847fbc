import Costing.Cost
import Costing.Link.Resolution

/-! # Recalculating a workspace

Any edit recalculates the whole workspace: links are followed first, and then every instance is
costed from the values of its own fields.  A fault stays with its instance. -/

namespace Costing

/-- A recalculated workspace. -/
structure Recalculation where
  /-- The instances with their new costs. -/
  instances : List Instance
  costs : Table String InstanceCost
  /-- The values to show; behind a broken link that of the field itself. -/
  values : Table String (Table String FieldValue)
  broken : List BrokenLink

namespace Workspace

/-- The cost of an instance from the values of its fields. -/
def instanceCost (w : Workspace) (book : Pricebook) (i : Instance)
    (inputs : Table String FieldInput) : Except Formula.Crash InstanceCost :=
  match w.moduleTable.get? i.moduleId with
  | none =>
    .ok (.ofFault i.id ({ cause := .evaluation (.moduleNotFound i.moduleId) } : Fault).report)
  | some m => m.cost book inputs i.id

def instanceCosts (w : Workspace) (book : Pricebook) (resolved : Resolved) :
    List Instance → Except Formula.Crash (List (Instance × InstanceCost))
  | [] => .ok []
  | i :: rest => do
    let c ← w.instanceCost book i ((resolved.values.get? i.id).getD .empty)
    let others ← w.instanceCosts book resolved rest
    pure ((i, c) :: others)

def recalculate (w : Workspace) (book : Pricebook) : Except Formula.Crash Recalculation := do
  let resolved ← w.resolveAll book
  let costs ← w.instanceCosts book resolved w.instances
  pure
    { instances := costs.map fun (i, c) => { i with calculatedCost := c.cost }
      costs := .ofList (costs.map fun (i, c) => (i.id, c))
      values := resolved.values.mapValues fun _ inputs => inputs.mapValues fun _ v => v.shown
      broken := resolved.broken }

end Workspace

end Costing

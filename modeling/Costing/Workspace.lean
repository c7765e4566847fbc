import Costing.Model.Module
import Costing.Units

/-! # Workspaces

A workspace holds the instances of an estimate and the modules that they use.  Where several
instances or modules share an identifier, the tables hold the last of them in the place of the
first. -/

namespace Costing

/-- The instances of an estimate and the modules that they use. -/
structure Workspace where
  instances : List Instance
  modules : List Module

/-- What a link may lead to. -/
inductive LinkTarget where
  | field (field : Field)
  | output (output : Output)

namespace LinkTarget

def unitCategory : LinkTarget → Option String
  | .field f => f.unitCategory
  | .output o => o.unitCategory

end LinkTarget

/-- The field or output of a module that a link means by a name. -/
def Module.target? (m : Module) (name : String) : Option LinkTarget :=
  if hasOutputPrefix name then (m.output? name).map .output else (m.field? name).map .field

namespace Workspace

def instanceTable (w : Workspace) : Table String Instance := .indexBy (·.id) w.instances

def moduleTable (w : Workspace) : Table String Module := .indexBy (·.id) w.modules

def firstInstance? (w : Workspace) (id : String) : Option Instance :=
  w.instances.find? (·.id == id)

def firstModule? (w : Workspace) (id : String) : Option Module := w.modules.find? (·.id == id)

end Workspace

end Costing

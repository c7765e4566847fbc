import Costing.Link.Proposal

/-! # Links as an editor shows them -/

namespace Costing

/-- A place that a field may be linked to, with its text for people. -/
structure LinkOption where
  place : Place
  label : String

/-- The unit symbol of an output in parentheses. -/
def Output.unitNote (o : Output) : String :=
  match Units.stated o.unitSymbol with
  | some symbol => " (" ++ symbol ++ ")"
  | none => ""

/-- A target as it is shown to people. -/
def LinkTarget.shown : LinkTarget → String
  | .field f => f.label
  | .output o => "Computed: " ++ o.label ++ o.unitNote

/-- The fields and outputs of a module that may be linked to at all, with their names. -/
def Module.offers (m : Module) : List (String × LinkTarget) :=
  ((m.fields.filter (!·.isCatalog)).map fun f => (f.name.text, .field f)) ++
    m.outputs.map fun o => (o.key, .output o)

namespace Workspace

/-- The module and the target that a link leads to, as long as they exist. -/
def linkedTarget? (w : Workspace) (link : Place) : Option (Module × LinkTarget) := do
  let i ← w.firstInstance? link.instanceId
  let m ← w.firstModule? i.moduleId
  let t ← m.target? link.name
  pure (m, t)

/-- Whether a field is linked to something that does not exist. -/
def isLinkBroken (w : Workspace) (i : Instance) (field : String) : Bool :=
  match i.links.get? field with
  | some link => (w.linkedTarget? link).isNone
  | none => false

/-- What a link is called; nothing if the field is not linked. -/
def linkName (w : Workspace) (i : Instance) (field : String) : String :=
  match i.links.get? field with
  | none => ""
  | some link =>
    match w.linkedTarget? link with
    | none => "source unavailable"
    | some (m, t) => m.name ++ " — " ++ t.shown

/-- The places in an instance that a field of another instance may be linked to. -/
def optionsIn (w : Workspace) (source : Place) (other : Instance) : List LinkOption :=
  match w.moduleTable.get? other.moduleId with
  | none => []
  | some m =>
    m.offers.filterMap fun (name, target) =>
      let place := Place.mk other.id name
      match w.checkLink source place with
      | .ok _ => some ⟨place, m.name ++ " — " ++ target.shown⟩
      | .error _ => none

/-- All places that a field of an instance may be linked to. -/
def linkOptions (w : Workspace) (i : Instance) (field : String) : List LinkOption :=
  (w.instances.filter (·.id != i.id)).flatMap (w.optionsIn ⟨i.id, field⟩)

end Workspace

end Costing

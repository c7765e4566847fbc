import Costing.Fault
import Costing.Json
import Costing.Model.Item
import Costing.Model.Module

/-! # Writing models as documents

Every record is written with all its entries, also those that a request may leave out. -/

namespace Costing.Report

def fieldValue : FieldValue → Json
  | .blank => .null
  | .flag b => .flag b
  | .number x => .real x
  | .text s => .text s

def table {α : Type} (write : α → Json) (t : Table String α) : Json :=
  .object (t.entries.map fun e => (e.1, write e.2))

/-- A value or the broken link in its place. -/
def fieldInput : FieldInput → Json
  | .given v => fieldValue v
  | .broken reason fallback =>
    .object [("broken", .text reason.word), ("fallback", fieldValue fallback)]

def fault (r : FaultReport) : Json :=
  .object [("kind", .text r.kind.word), ("message", .text r.message),
    ("subject", .ofText? r.subject)]

def property (p : Property) : Json :=
  .object [("id", .ofText? p.id), ("name", .text p.name), ("type", .text p.kind.word),
    ("value", fieldValue p.value), ("unit_symbol", .ofText? p.unitSymbol),
    ("unit_category", .ofText? p.unitCategory), ("stored_value", .ofReal? p.storedValue)]

def material (m : Material) : Json :=
  .object [("id", .text m.id), ("name", .text m.name), ("variable_name", .text m.key.text),
    ("category", .text m.category), ("unit", .text m.unit), ("price", .real m.price),
    ("sku", .ofText? m.sku), ("supplier", .ofText? m.supplier),
    ("description", .ofText? m.description), ("properties", .list (m.properties.map property))]

def labor (l : Labor) : Json :=
  .object [("id", .text l.id), ("name", .text l.name), ("variable_name", .text l.key.text),
    ("category", .text l.category), ("cost", .real l.cost),
    ("description", .ofText? l.description), ("properties", .list (l.properties.map property))]

def parameter (p : Parameter) : Json :=
  .object [("name", .text p.name.text), ("label", .text p.label),
    ("unit_symbol", .ofText? p.unitSymbol), ("unit_category", .ofText? p.unitCategory),
    ("required", .flag p.required)]

def sharedFunction (f : SharedFunction) : Json :=
  .object [("id", .ofText? f.id), ("name", .text f.name.text),
    ("description", .ofText? f.description), ("category", .ofText? f.category),
    ("parameters", .list (f.parameters.map parameter)), ("formula", .text f.formula)]

def field (f : Field) : Json :=
  .object [("id", .text f.id), ("label", .text f.label), ("variable_name", .text f.name.text),
    ("type", .text f.kind.word), ("required", .flag f.required),
    ("default_value", fieldValue f.default), ("options", .ofTexts f.options),
    ("dropdown_mode", .text f.dropdownMode.word), ("unit_symbol", .ofText? f.unitSymbol),
    ("unit_category", .ofText? f.unitCategory),
    ("catalog_category", .ofText? f.catalogCategory), ("description", .ofText? f.description)]

def output (o : Output) : Json :=
  .object [("id", .text o.id), ("label", .text o.label), ("variable_name", .text o.name.text),
    ("expression", .text o.expression), ("unit_symbol", .ofText? o.unitSymbol),
    ("unit_category", .ofText? o.unitCategory), ("show_in_quote", .flag o.showInQuote)]

def calculationModule (m : Module) : Json :=
  .object [("id", .text m.id), ("name", .text m.name), ("description", .ofText? m.description),
    ("category", .ofText? m.category), ("fields", .list (m.fields.map field)),
    ("computed_outputs", .list (m.outputs.map output)), ("formula", .text m.formula)]

def fieldLink (p : Place) : Json :=
  .object [("target_instance_id", .text p.instanceId), ("target_variable_name", .text p.name)]

def moduleInstance (i : Instance) : Json :=
  .object [("id", .text i.id), ("module_id", .text i.moduleId),
    ("field_values", table fieldValue i.values), ("field_links", table fieldLink i.links),
    ("calculated_cost", .ofReal? i.calculatedCost)]

/-- The entries of a line of a quote without its identifier. -/
def lineItemEntries (l : LineItem) : List (String × Json) :=
  [("module_id", .text l.moduleId), ("module_name", .text l.moduleName),
    ("field_values", table fieldValue l.values), ("field_summary", .text l.summary),
    ("cost", .real l.cost)]

def lineItem (l : LineItem) : Json := .object (("id", .text l.id) :: lineItemEntries l)

end Costing.Report

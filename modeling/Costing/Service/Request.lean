import Costing.Formula.Scope
import Costing.Intake.Catalog
import Costing.Intake.Module
import Costing.Workspace

/-! # Requests of the service

Every request brings the state that it is about: prices and functions, modules and instances.
The service itself keeps nothing. -/

namespace Costing.Service

open Intake

def pricebook (doc : Json) : Checked Pricebook :=
  Pricebook.ofLists <$> entryOr doc "materials" [] (listOf material)
    <*> entryOr doc "labor" [] (listOf labor)
    <*> entryOr doc "functions" [] (listOf sharedFunction)

/-- A conversion of a value from one unit to another one. -/
structure Conversion where
  value : Float
  source : String
  target : String

def conversion : Reader Conversion := record fun doc =>
  Conversion.mk <$> entry doc "value" number <*> entry doc "from_unit" text
    <*> entry doc "to_unit" text

/-- A conversion of a value to base units, or from them in order to show it. -/
structure Normalization where
  value : Float
  symbol : String
  toDisplay : Bool

def normalization : Reader Normalization := record fun doc =>
  Normalization.mk <$> entry doc "value" number <*> entry doc "unit_symbol" text
    <*> entryOr doc "to_display" false flag

/-- A formula to be evaluated. -/
structure Evaluation where
  book : Pricebook
  formula : String
  values : Table String FieldValue
  fields : List Field

def evaluation : Reader Evaluation := record fun doc =>
  Evaluation.mk <$> pricebook doc <*> entry doc "formula" text
    <*> entryOr doc "variables" .empty (tableOf fieldValue)
    <*> entryOr doc "fields" [] (listOf field)

/-- A formula to be validated or analyzed. -/
structure Validation where
  book : Pricebook
  formula : String
  available : List String
  fields : List Field
  outputs : List Output
  bareOutputs : Bool

/-- Reads a formula to be validated or analyzed. -/
def validation : Reader Validation := record fun doc =>
  Validation.mk <$> pricebook doc <*> entry doc "formula" text
    <*> entryOr doc "available_variables" [] (listOf text)
    <*> entryOr doc "fields" [] (listOf field)
    <*> entryOr doc "computed_outputs" [] (listOf output)
    <*> entryOr doc "allow_bare_outputs" false flag

/-- A word for which names are to be suggested. -/
structure Suggestion where
  book : Pricebook
  word : String
  available : List String
  fields : List Field
  recent : List String
  limit : Option Int

/-- Reads a word for which names are to be suggested. -/
def suggestion : Reader Suggestion := record fun doc =>
  Suggestion.mk <$> pricebook doc <*> entryOr doc "word" "" text
    <*> entryOr doc "available_variables" [] (listOf text)
    <*> entryOr doc "fields" [] (listOf field)
    <*> entryOr doc "recent" [] (listOf text)
    <*> entry? doc "limit" wholeNumber

/-- A module with prices and functions. -/
structure ModuleRequest where
  book : Pricebook
  definition : Module

/-- Reads the entries of a module with prices and functions. -/
def moduleEntries (doc : Json) : Checked ModuleRequest :=
  ModuleRequest.mk <$> pricebook doc <*> entry doc "module" calculationModule

/-- Reads a module with values for its fields. -/
def preview : Reader (ModuleRequest × Table String FieldValue) := record fun doc =>
  Prod.mk <$> moduleEntries doc <*> entryOr doc "field_values" .empty (tableOf fieldValue)

/-- Reads a label for a new output of a module. -/
def labelling : Reader (String × Module) := record fun doc =>
  Prod.mk <$> entry doc "label" text <*> entry doc "module" calculationModule

/-- A workspace with prices and functions. -/
structure WorkspaceRequest where
  book : Pricebook
  workspace : Workspace

/-- Reads the entries of a workspace with prices and functions. -/
def workspaceEntries (doc : Json) : Checked WorkspaceRequest :=
  WorkspaceRequest.mk <$> pricebook doc
    <*> (Workspace.mk <$> entryOr doc "instances" [] (listOf moduleInstance)
      <*> entryOr doc "modules" [] (listOf calculationModule))

/-- Reads a workspace and a link proposed in it, source and target. -/
def linkProposal : Reader (WorkspaceRequest × Place × Place) := record fun doc =>
  (fun request i f j n => (request, ⟨i, f⟩, ⟨j, n⟩)) <$> workspaceEntries doc
    <*> entry doc "instance_id" text <*> entry doc "field_name" text
    <*> entry doc "target_instance_id" text <*> entry doc "target_variable_name" text

/-- Reads a workspace and a field in it. -/
def workspaceField : Reader (WorkspaceRequest × Place) := record fun doc =>
  (fun request i f => (request, ⟨i, f⟩)) <$> workspaceEntries doc
    <*> entry doc "instance_id" text <*> entry doc "field_name" text

/-- Reads a workspace and the identifier of an instance in it. -/
def workspaceInstance : Reader (WorkspaceRequest × String) := record fun doc =>
  Prod.mk <$> workspaceEntries doc <*> entry doc "instance_id" text

/-- A quote to be totalled. -/
structure Totalling where
  items : List LineItem
  markupPercent : Option Float
  taxRate : Option Float

def totalling : Reader Totalling := record fun doc =>
  Totalling.mk <$> entryOr doc "line_items" [] (listOf lineItem)
    <*> entry? doc "markup_percent" number <*> entry? doc "tax_rate" number

end Costing.Service

import Costing.Cost
import Costing.Fault
import Costing.Intake.Checked
import Costing.Model.Module

/-! # Reading modules, instances and line items -/

namespace Costing.Intake

/-- A field.  Only numbers carry a unit; the category follows the unit. -/
def field : Reader Field := record fun doc =>
  (Field.mk <$> entry doc "id" text <*> entry doc "label" text
    <*> entry doc "variable_name" variableName
    <*> entryOr doc "type" .number (oneOf FieldType.all FieldType.word)
    <*> entryOr doc "required" false flag
    <*> entryOr doc "default_value" .blank fieldValue
    <*> entryOr doc "options" [] (listOf text)
    <*> entryOr doc "dropdown_mode" .string (oneOf DropdownMode.all DropdownMode.word)
    <*> entry? doc "unit_symbol" text <*> entry? doc "unit_category" text
    <*> entry? doc "catalog_category" text <*> entry? doc "description" text).andThen fun f =>
  let stated := fun s : Option String => s.isSome && s != some ""
  if (stated f.unitSymbol || stated f.unitCategory) && !f.isNumeric then
    .reject (.unitOnField f.name.text f.kind)
  else
    (fun category => { f with unitCategory := category }) <$>
      categoryFor f.unitSymbol f.unitCategory

/-- A computed output.  Its category follows its unit. -/
def output : Reader Output := record fun doc =>
  (Output.mk <$> entry doc "id" text <*> entry doc "label" text
    <*> entry doc "variable_name" variableName <*> entry doc "expression" text
    <*> entry? doc "unit_symbol" text <*> entry? doc "unit_category" text
    <*> entryOr doc "show_in_quote" true flag).andThen fun o =>
  (fun category => { o with unitCategory := category }) <$>
    categoryFor o.unitSymbol o.unitCategory

/-- A module from its parts, unless two of its fields and outputs share a name. -/
def assembleModule (id name : String) (description category : Option String)
    (fields : List Field) (outputs : List Output) (formula : String) : Checked Module :=
  match h : repeated? [] (declaredNames fields outputs) with
  | some n => .reject (.repeatedName n.text name)
  | none =>
    .valid ⟨id, name, description, category, fields, outputs, formula,
      (nodup_of_repeated?_eq_none h).1⟩

def calculationModule : Reader Module := record fun doc =>
  (assembleModule <$> entry doc "id" text <*> entry doc "name" text
    <*> entry? doc "description" text <*> entry? doc "category" text
    <*> entryOr doc "fields" [] (listOf field)
    <*> entryOr doc "computed_outputs" [] (listOf output)
    <*> entryOr doc "formula" "" text).andThen id

def fieldLink : Reader Place := record fun doc =>
  Place.mk <$> entry doc "target_instance_id" text <*> entry doc "target_variable_name" text

def moduleInstance : Reader Instance := record fun doc =>
  Instance.mk <$> entry doc "id" text <*> entry doc "module_id" text
    <*> entryOr doc "field_values" .empty (tableOf fieldValue)
    <*> entryOr doc "field_links" .empty (tableOf fieldLink)
    <*> entry? doc "calculated_cost" number

def lineItem : Reader LineItem := record fun doc =>
  LineItem.mk <$> entry doc "id" text <*> entry doc "module_id" text
    <*> entry doc "module_name" text
    <*> entryOr doc "field_values" .empty (tableOf fieldValue)
    <*> entryOr doc "field_summary" "" text <*> entry doc "cost" number

def faultKind : Reader FaultKind
  | .text s => match FaultKind.ofWord? s with | some k => .valid k | none => .problem .notKind
  | _ => .problem .notKind

def faultReport : Reader FaultReport := record fun doc =>
  FaultReport.mk <$> entry doc "kind" faultKind <*> entry doc "message" text
    <*> entry? doc "subject" text

def instanceCost : Reader InstanceCost := record fun doc =>
  InstanceCost.mk <$> entry doc "instance_id" text <*> entry? doc "cost" number
    <*> entry? doc "error" faultReport
    <*> entryOr doc "computed_values" .empty (tableOf number)
    <*> entryOr doc "computed_errors" .empty (tableOf faultReport)

end Costing.Intake

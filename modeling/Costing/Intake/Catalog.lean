import Costing.Decimal.Reading
import Costing.Intake.Checked
import Costing.Model.Module

/-! # Reading catalogs and shared functions -/

namespace Costing.Intake

/-- The number that a property holds in base units, from its value or as stated. -/
def storedValue (p : Property) : Checked (Option Float) :=
  let stored := fun raw : Float =>
    match p.unitSymbol.bind Units.find? with
    | some u => some (Units.toBase u raw)
    | none => some raw
  if p.kind.isNumeric then
    match p.value with
    | .number x => .valid (stored x)
    | .text s =>
      match Decimal.read? s with
      | some x => .valid (stored x)
      | none => .reject (.propertyNotNumeric p.name)
    | _ => .valid p.storedValue
  else .valid p.storedValue

/-- A property.  Its category follows its unit, its stored number follows its value. -/
def property : Reader Property := record fun doc =>
  (Property.mk <$> entry? doc "id" text <*> entry doc "name" text
    <*> entryOr doc "type" .number (oneOf PropertyType.all PropertyType.word)
    <*> entryOr doc "value" .blank fieldValue
    <*> entry? doc "unit_symbol" text <*> entry? doc "unit_category" text
    <*> entry? doc "stored_value" number).andThen fun p =>
  (categoryFor p.unitSymbol p.unitCategory).andThen fun category =>
  (fun stored => { p with unitCategory := category, storedValue := stored }) <$> storedValue p

def material : Reader Material := record fun doc =>
  Material.mk <$> entry doc "id" text <*> entry doc "name" text
    <*> entry doc "variable_name" variableName
    <*> entryOr doc "category" "" text <*> entryOr doc "unit" "" text
    <*> entryOr doc "price" 0 number
    <*> entry? doc "sku" text <*> entry? doc "supplier" text <*> entry? doc "description" text
    <*> entryOr doc "properties" [] (listOf property)

/-- The properties of labor, all of them numbers. -/
def laborProperties (doc : Json) : Checked (List Property) :=
  (listOf property doc).andThen fun ps =>
    match ps.find? (!·.kind.isNumeric) with
    | some p => .reject (.laborPropertyNotNumeric p.name)
    | none => .valid ps

def labor : Reader Labor := record fun doc =>
  Labor.mk <$> entry doc "id" text <*> entry doc "name" text
    <*> entry doc "variable_name" variableName
    <*> entryOr doc "category" "" text <*> entryOr doc "cost" 0 number
    <*> entry? doc "description" text
    <*> entryOr doc "properties" [] laborProperties

def parameter : Reader Parameter := record fun doc =>
  (Parameter.mk <$> entry doc "name" variableName <*> entryOr doc "label" "" text
    <*> entry? doc "unit_symbol" text <*> entry? doc "unit_category" text
    <*> entryOr doc "required" true flag).andThen fun p =>
  (fun category => { p with unitCategory := category }) <$>
    categoryFor p.unitSymbol p.unitCategory

abbrev DistinctParameters :=
  { ps : List Parameter // ((ps.map (·.name)).map VariableName.folded).Nodup }

def parameters (doc : Json) : Checked DistinctParameters :=
  (listOf parameter doc).andThen fun ps =>
    match h : repeated? [] (ps.map (·.name)) with
    | some name => .reject (.repeatedParameter name.text)
    | none => .valid ⟨ps, (nodup_of_repeated?_eq_none h).1⟩

def sharedFunction : Reader SharedFunction := record fun doc =>
  (fun id name description category (ps : DistinctParameters) formula =>
      SharedFunction.mk id name description category ps.1 formula ps.2)
    <$> entry? doc "id" text <*> entry doc "name" variableName
    <*> entry? doc "description" text <*> entry? doc "category" text
    <*> entryOr doc "parameters" ⟨[], by simp⟩ parameters <*> entry doc "formula" text

end Costing.Intake

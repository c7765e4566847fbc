import Costing.Decimal.Reading
import Costing.Fault
import Costing.Model.Item
import Costing.Table

/-! # Catalogs

A catalog holds materials and labor under their names.  Where several items of one half share a
name, or several properties of an item, the last one counts.  A bare reference to an item reads
its rate, a dotted one reads a property; materials win over labor of the same name. -/

namespace Costing

/-- The materials and the labor that formulas may refer to, by name. -/
structure Catalog where
  materials : Table String Item
  labor : Table String Item

namespace Item

def propertyTable (i : Item) : Table String Property := .indexBy (·.name) i.properties

def property? (i : Item) (name : String) : Option Property := i.propertyTable.get? name

def propertyNames (i : Item) : List String := i.propertyTable.keys

end Item

namespace Property

/-- The number that a property stands for; `subject` names it in the wording of a fault. -/
def toNumber (p : Property) (subject : String) : Except EvaluationFault Float :=
  match p.kind with
  | .number | .price =>
    match p.storedValue, p.value with
    | some x, _ => .ok x
    | none, .blank => .error (.propertyBlank subject)
    | none, .flag b => .ok (if b then 1 else 0)
    | none, .number x => .ok x
    | none, .text s =>
      match Decimal.read? s with
      | some x => .ok x
      | none => .error (.propertyIsText subject p.value)
  | .boolean =>
    match p.value with
    | .flag true => .ok 1
    | .text "true" => .ok 1
    | _ => .ok 0
  | .string =>
    match Decimal.read? (Text.strip p.value.plain) with
    | some x => .ok x
    | none => .error (.propertyIsText subject p.value)

end Property

namespace Catalog

def ofLists (materials : List Material) (labor : List Labor) : Catalog where
  materials := .indexBy (·.key.text) (materials.map .material)
  labor := .indexBy (·.key.text) (labor.map .labor)

def shelf (c : Catalog) : CatalogKind → Table String Item
  | .material => c.materials
  | .labor => c.labor

/-- The item of one half with a name. -/
def get? (c : Catalog) (kind : CatalogKind) (name : String) : Option Item :=
  (c.shelf kind).get? name

/-- The item that a formula means by a name, and the half it stands in. -/
def find? (c : Catalog) (name : String) : Option (CatalogKind × Item) :=
  match c.get? .material name with
  | some i => some (.material, i)
  | none => (c.get? .labor name).map fun i => (.labor, i)

def names (c : Catalog) : List String := c.materials.keys ++ c.labor.keys

/-- The items of one half that a restriction to a category leaves; a blank category leaves
all. -/
def itemsFor (c : Catalog) (kind : CatalogKind) (category : Option String) : List Item :=
  let items := (c.shelf kind).values
  match category with
  | some name => if Text.isBlankText name then items else items.filter (·.category == name)
  | none => items

def itemsForField (c : Catalog) (f : Field) : List Item :=
  match f.catalogKind? with
  | some kind => c.itemsFor kind f.catalogCategory
  | none => []

/-- The property of an item by the names of both. -/
def property? (c : Catalog) (kind : CatalogKind) (item property : String) : Option Property :=
  (c.get? kind item).bind (·.property? property)

/-- The number in a property, if item and property exist. -/
def propertyValue? (c : Catalog) (kind : CatalogKind) (item property : String) :
    Except EvaluationFault (Option Float) :=
  match c.property? kind item property with
  | some p => (p.toNumber (item ++ "." ++ property)).map some
  | none => .ok none

def propertyCategory? (c : Catalog) (kind : CatalogKind) (item property : String) :
    Option String :=
  (c.property? kind item property).bind (·.unitCategory)

/-- The names of the properties of an item. -/
def propertyNames (c : Catalog) (kind : CatalogKind) (item : String) : List String :=
  match c.get? kind item with
  | some i => i.propertyNames
  | none => []

/-- Whether some item that a field may select has a property. -/
def fieldHasProperty (c : Catalog) (f : Field) (property : String) : Bool :=
  (c.itemsForField f).any fun i => (i.property? property).isSome

/-- The unit category of a property of the items that a field may select: the first that is
stated. -/
def fieldPropertyCategory? (c : Catalog) (f : Field) (property : String) : Option String :=
  (c.itemsForField f).findSome? fun i =>
    ((i.property? property).bind (·.unitCategory)).filter (· != "")

end Catalog

end Costing

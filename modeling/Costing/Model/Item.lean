import Costing.Model.Field

/-! # Catalog items

Materials have a price, labor has an hourly cost; both carry named properties that formulas
may read. -/

namespace Costing

/-- What a property holds. -/
inductive PropertyType where
  | number | price | string | boolean
deriving DecidableEq

namespace PropertyType

def all : List PropertyType := [.number, .price, .string, .boolean]

def word : PropertyType → String
  | .number => "number"
  | .price => "price"
  | .string => "string"
  | .boolean => "boolean"

/-- Whether a property of this type holds a number. -/
def isNumeric : PropertyType → Bool
  | .number | .price => true
  | .string | .boolean => false

end PropertyType

/-- A named property of a catalog item. -/
structure Property where
  id : Option String
  name : String
  kind : PropertyType
  value : FieldValue
  unitSymbol : Option String
  unitCategory : Option String
  /-- The number in base units. -/
  storedValue : Option Float

/-- A material. -/
structure Material where
  id : String
  name : String
  key : VariableName
  category : String
  unit : String
  price : Float
  sku : Option String
  supplier : Option String
  description : Option String
  properties : List Property

/-- A kind of work. -/
structure Labor where
  id : String
  name : String
  key : VariableName
  category : String
  /-- The cost of an hour. -/
  cost : Float
  description : Option String
  properties : List Property

/-- An item of either half of the catalog. -/
inductive Item where
  | material (m : Material)
  | labor (l : Labor)

namespace Item

/-- The half of the catalog that an item stands in. -/
def kind : Item → CatalogKind
  | .material _ => .material
  | .labor _ => .labor

/-- The identifier of an item in the catalog. -/
def id : Item → String
  | .material m => m.id
  | .labor l => l.id

/-- The name by which formulas refer to an item. -/
def key : Item → VariableName
  | .material m => m.key
  | .labor l => l.key

def category : Item → String
  | .material m => m.category
  | .labor l => l.category

def properties : Item → List Property
  | .material m => m.properties
  | .labor l => l.properties

/-- What a bare reference to an item reads: the price of a material, the hourly cost of labor. -/
def rate : Item → Float
  | .material m => m.price
  | .labor l => l.cost

end Item

end Costing

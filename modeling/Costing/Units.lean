import Costing.Text.Quoted

/-! # Units of measure

Every number that carries a unit is stored in the base unit of its category (metre, square
metre, cubic metre, kilogram), so that formulas see base values only.  The algebra of
categories says what a product or a quotient measures. -/

namespace Costing

/-- A unit of measure. -/
structure MeasureUnit where
  key : String
  category : String
  /-- The symbol shown to people. -/
  symbol : String
  /-- How many of the unit make one base unit. -/
  scale : Float

/-- What is wrong with a request for a unit. -/
inductive UnitFault where
  | unknown (symbol : String)
  | categoriesDiffer (source target : String)
deriving DecidableEq

namespace Units

def categories : List String := ["length", "area", "volume", "weight", "percentage", "count"]

def registry : List MeasureUnit :=
  [⟨"mm", "length", "mm", 1000.0⟩,
   ⟨"cm", "length", "cm", 100.0⟩,
   ⟨"m", "length", "m", 1.0⟩,
   ⟨"m2", "area", "m²", 1.0⟩,
   ⟨"m3", "volume", "m³", 1.0⟩,
   ⟨"l", "volume", "L", 1000.0⟩,
   ⟨"kg", "weight", "kg", 1.0⟩,
   -- percentages are kept from 0 to 100
   ⟨"%", "percentage", "%", 1.0⟩,
   ⟨"pcs", "count", "pcs", 1.0⟩,
   -- containers and currency are counted, never converted
   ⟨"liters", "count", "L", 1.0⟩,
   ⟨"price", "count", "$", 1.0⟩]

def symbols : List String := registry.map (·.key)

end Units

def UnitFault.message : UnitFault → String
  | .unknown symbol =>
    "Unknown unit symbol: " ++ Text.quoted symbol ++ ". Available: [" ++
      String.intercalate ", " (Units.symbols.map Text.quoted) ++ "]"
  | .categoriesDiffer source target =>
    "Cannot convert between different unit categories: " ++ source ++ " and " ++ target

namespace Units

/-- The unit with a key, if it is known. -/
def find? (symbol : String) : Option MeasureUnit := registry.find? (·.key == symbol)

def get (symbol : String) : Except UnitFault MeasureUnit :=
  match find? symbol with
  | some u => .ok u
  | none => .error (.unknown symbol)

/-- The category of a unit; an empty symbol has none. -/
def category (symbol : String) : Except UnitFault (Option String) :=
  if symbol = "" then .ok none else (get symbol).map fun u => some u.category

def toBase (u : MeasureUnit) (value : Float) : Float := value / u.scale

def fromBase (u : MeasureUnit) (value : Float) : Float := value * u.scale

/-- A value of one unit in another unit of the same category. -/
def convert (value : Float) (source target : String) : Except UnitFault Float := do
  let s ← get source
  let t ← get target
  if s.category = t.category then .ok (fromBase t (toBase s value))
  else .error (.categoriesDiffer s.category t.category)

/-- Two units are compatible when both are known and share a category. -/
def compatible (a b : String) : Bool :=
  match find? a, find? b with
  | some u, some v => u.category == v.category
  | _, _ => false

/-- The keys of the units of a category. -/
def ofCategory (name : String) : List String :=
  (registry.filter (·.category == name)).map (·.key)

/-! ## The algebra of categories -/

/-- Whether a category behaves as a plain number. -/
def isUnitless (name : String) : Bool := name == "count" || name == "percentage"

/-- A category that is stated: an empty text states none. -/
def stated (category : Option String) : Option String := category.filter (· != "")

def multiply (a b : String) : String :=
  if a = "length" ∧ b = "length" then "area"
  else if a = "area" ∧ b = "length" ∨ a = "length" ∧ b = "area" then "volume"
  else if isUnitless a then b
  else if isUnitless b then a
  else "count"

/-- What a quotient measures, if the division makes sense: equal measures cancel, and anything
may be divided by a plain number. -/
def divide? (a b : String) : Option String :=
  if a = b ∧ isUnitless a = false then some "count"
  else if isUnitless b then some a
  else none

end Units

end Costing

import Costing.Identifier
import Costing.Value

/-! # Fields and computed outputs

A calculation module declares the fields that people fill in and the outputs that it
computes from them on the way to its cost. -/

namespace Costing

/-- What a field holds. -/
inductive FieldType where
  | number | text | boolean | dropdown | material | labor
deriving DecidableEq

namespace FieldType

def all : List FieldType := [.number, .text, .boolean, .dropdown, .material, .labor]

def word : FieldType → String
  | .number => "number"
  | .text => "text"
  | .boolean => "boolean"
  | .dropdown => "dropdown"
  | .material => "material"
  | .labor => "labor"

end FieldType

/-- Whether the options of a dropdown are numbers or words. -/
inductive DropdownMode where
  | numeric | string
deriving DecidableEq

namespace DropdownMode

def all : List DropdownMode := [.numeric, .string]

def word : DropdownMode → String
  | .numeric => "numeric"
  | .string => "string"

end DropdownMode

/-- The two halves of a catalog. -/
inductive CatalogKind where
  | material | labor
deriving DecidableEq

namespace CatalogKind

def word : CatalogKind → String
  | .material => "material"
  | .labor => "labor"

def ofWord? : String → Option CatalogKind
  | "material" => some .material
  | "labor" => some .labor
  | _ => none

end CatalogKind

/-- A field of a module. -/
structure Field where
  id : String
  label : String
  name : VariableName
  kind : FieldType
  required : Bool
  default : FieldValue
  options : List String
  dropdownMode : DropdownMode
  unitSymbol : Option String
  unitCategory : Option String
  /-- Restricts the catalog items that may be selected. -/
  catalogCategory : Option String
  description : Option String

namespace Field

/-- The half of the catalog that a field selects from. -/
def catalogKind? (f : Field) : Option CatalogKind :=
  match f.kind with
  | .material => some .material
  | .labor => some .labor
  | _ => none

def isCatalog (f : Field) : Bool := f.catalogKind?.isSome

def isNumeric (f : Field) : Bool :=
  f.kind == .number || (f.kind == .dropdown && f.dropdownMode == .numeric)

end Field

/-- What stands before the name of a computed output where the module's formula or a link
refers to it. -/
def outputPrefix : String := "out."

/-- Whether a name refers to a computed output by its prefix. -/
def hasOutputPrefix (name : String) : Bool := outputPrefix.toList.isPrefixOf name.toList

/-- A name without the prefix of computed outputs, if it has it. -/
def dropOutputPrefix (name : String) : String :=
  if hasOutputPrefix name then String.ofList (name.toList.drop outputPrefix.length) else name

/-- A computed output of a module. -/
structure Output where
  id : String
  label : String
  name : VariableName
  expression : String
  unitSymbol : Option String
  unitCategory : Option String
  showInQuote : Bool

/-- The name under which formulas and links refer to an output. -/
def Output.key (o : Output) : String := outputPrefix ++ o.name.text

end Costing

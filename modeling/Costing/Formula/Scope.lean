import Costing.Catalog
import Costing.Formula.Builtin
import Costing.Formula.Token
import Costing.Model.Module
import Costing.Text.Lowercase

/-! # What a formula may refer to

A scope holds the tagged values of variables, the catalog and the shared functions.  Values are
tagged once, by the declared type of their field:

* numbers and numeric dropdowns become numbers, and so do truth values (one and zero);
* texts stay texts, and arithmetic refuses them;
* material and labor fields become selections of a catalog item;
* a broken link stays broken, and a declared field without value or default is missing.

`Scope.resolve` gives the number that a name stands for, or the reason why there is none. -/

namespace Costing

/-- A value as a formula sees it. -/
inductive Tagged where
  | number (value : Float)
  | text (text : String)
  | selection (kind : CatalogKind) (key : Option String)
  | broken (reason : BrokenReason) (fallback : FieldValue)
  | missing

namespace FieldValue

/-- Whether a value switches a boolean field on. -/
def isTruthy : FieldValue → Bool
  | .blank => false
  | .flag b => b
  | .number x => x != 0
  | .text s => ["true", "1", "yes"].contains (Text.lower (Text.strip s))

/-- A value that is not blank, as a number where it can be read as one. -/
def toTagged : FieldValue → Tagged
  | .blank => .missing
  | .flag b => .number (if b then 1 else 0)
  | .number x => .number x
  | .text s =>
    match Decimal.read? (Text.strip s) with
    | some x => .number x
    | none => .text s

end FieldValue

/-- Tags a value by the type of its field; a blank value gives way to the default. -/
def Field.tag (f : Field) : FieldInput → Tagged
  | .broken reason fallback => .broken reason fallback
  | .given value =>
    let effective := if value.isBlank then f.default else value
    match f.kind with
    | .material => .selection .material (if effective.isBlank then none else some effective.plain)
    | .labor => .selection .labor (if effective.isBlank then none else some effective.plain)
    | .boolean => .number (if effective.isTruthy then 1 else 0)
    | .text => if effective.isBlank then .missing else .text effective.plain
    | .number | .dropdown => if effective.isBlank then .missing else effective.toTagged

def FieldInput.tag : FieldInput → Tagged
  | .broken reason fallback => .broken reason fallback
  | .given value => if value.isBlank then .missing else value.toTagged

/-- The catalog and the shared functions that formulas may use. -/
structure Pricebook where
  catalog : Catalog
  functions : Table String SharedFunction

namespace Pricebook

/-- A price book from lists; of several functions with one name the last counts. -/
def ofLists (materials : List Material) (labor : List Labor) (functions : List SharedFunction) :
    Pricebook where
  catalog := .ofLists materials labor
  functions := .indexBy (·.name.text) functions

end Pricebook

namespace Formula

/-- What a formula may refer to.  `depth` counts the shared functions whose bodies are open. -/
structure Scope where
  book : Pricebook
  values : Table String Tagged
  depth : Nat

namespace Scope

/-- The scope of inputs under the declarations of fields.  Declared fields come first, also
those without an input. -/
def ofInputs (book : Pricebook) (fields : List Field) (inputs : Table String FieldInput) :
    Scope :=
  let declared : Table String Field := .indexBy (·.name.text) fields
  let tagged := declared.mapValues fun name f =>
    f.tag ((inputs.get? name).getD (.given .blank))
  let others := inputs.entries.filter fun e => !declared.contains e.1
  { book := book
    values := tagged.insertAll (others.map fun e => (e.1, e.2.tag))
    depth := 0 }

/-- The scope with further values that no field declares. -/
def extend (s : Scope) (inputs : Table String FieldInput) : Scope :=
  { s with values := s.values.insertAll (inputs.entries.map fun e => (e.1, e.2.tag)) }

/-- The scope of the body of a shared function: its arguments and nothing else. -/
def forBody (s : Scope) (arguments : Table String Tagged) : Scope :=
  { s with values := arguments, depth := s.depth + 1 }

/-! ## Resolving names -/

/-- The item that a material or labor field has selected. -/
def selected (s : Scope) (field : String) (kind : CatalogKind) (key : Option String)
    (neededFor : String) : Except Cause (String × Item) :=
  match key with
  | none => .error (.missingSelection (.nothing kind field neededFor))
  | some k =>
    match s.book.catalog.get? kind k with
    | some item => .ok (k, item)
    | none => .error (.missingSelection (.notInCatalog kind k field neededFor))

/-- The number in the value of a name. -/
def numeric (s : Scope) (name : String) : Tagged → Except Cause Float
  | .number x => .ok x
  | .broken reason _ => .error (.brokenLink (.field name reason))
  | .missing => .error (.missingInput (.blank name))
  | .text t => .error (.evaluation (.fieldIsText name t))
  | .selection kind key => (s.selected name kind key name).map fun found => found.2.rate

/-- The number in a property of an item; `name` is the whole name that reads it. -/
def propertyOf (s : Scope) (kind : CatalogKind) (item property name : String) :
    Except Cause Float :=
  match s.book.catalog.propertyValue? kind item property with
  | .ok (some x) => .ok x
  | .ok none => .error (.unknownName (.noProperty property kind item name))
  | .error f => .error (.evaluation f)

/-- The number that a name with a point stands for, if no value has the whole name. -/
def resolveProperty (s : Scope) (base property name : String) : Except Cause Float :=
  match s.values.get? base with
  | some (.broken reason _) => .error (.brokenLink (.field base reason))
  | some (.selection kind key) => do
    let (k, _) ← s.selected base kind key name
    s.propertyOf kind k property name
  | some _ => .error (.unknownName (.notSelecting base property name))
  | none =>
    match s.book.catalog.find? base with
    | some (kind, _) => s.propertyOf kind base property name
    | none =>
      if hasOutputPrefix name then .error (.unknownName (.outputUnavailable property name))
      else .error (.unknownName (.unknownVariable name))

/-- The number that a name without a point stands for, if no value has it. -/
def resolvePlain (s : Scope) (name : String) : Except Cause Float :=
  match s.book.catalog.find? name with
  | some (_, item) => .ok item.rate
  | none =>
    match constant? name with
    | some x => .ok x
    | none =>
      if s.book.functions.contains name || (Builtin.ofName? name).isSome then
        .error (.unknownName (.uncalledFunction name))
      else .error (.unknownName (.unknownVariable name))

def resolve (s : Scope) (name : String) : Except Cause Float :=
  match s.values.get? name with
  | some value => s.numeric name value
  | none =>
    match splitName name with
    | (base, some property) => s.resolveProperty base property name
    | (_, none) => s.resolvePlain name

end Scope

end Formula

end Costing

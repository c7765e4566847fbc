import Costing.Formula.Tree
import Costing.Formula.Vocabulary

/-! # Checking references

Every name and every call in a formula has to mean something in the vocabulary.  Names are
checked in the order of the nodes of the tree, and the first one without a meaning is the
fault.  A bare reference to a material or labor field has a meaning that may surprise, so it is
accepted with a warning. -/

namespace Costing.Formula

/-- What a formula is accepted with all the same. -/
inductive Warning where
  /-- A field is read that selects a catalog item. -/
  | readsSelection (field : String) (kind : CatalogKind)
deriving DecidableEq

def Warning.message : Warning → String
  | .readsSelection field kind =>
    named field ++ " uses the selected " ++ kind.word ++ " item's " ++
      (match kind with | .material => "price" | .labor => "hourly cost")

namespace Vocabulary

/-- Checks the call of a function; `source` is the text of the call. -/
def checkCall (v : Vocabulary) (function : String) (count : Nat) (source : String) :
    Except Cause Unit :=
  match Builtin.ofName? function with
  | some f =>
    if f.arity.accepts count then .ok () else .error (.arity (.builtinCall function count source))
  | none =>
    match v.book.functions.get? function with
    | some f =>
      if f.arity.accepts count then .ok ()
      else .error (.arity
        (.sharedCall function (f.parameters.map (·.name.text)) count source))
    | none => .error (.unknownName (.unknownFunction function))

def checkPlain (v : Vocabulary) (name : String) : Except Cause (Option Warning) :=
  if v.available.contains name then
    .ok (((v.fields.get? name).bind (·.catalogKind?)).map (.readsSelection name))
  else if (v.book.catalog.find? name).isSome || (constant? name).isSome then .ok none
  else if (Builtin.ofName? name).isSome || v.book.functions.contains name then
    .error (.unknownName (.uncalledFunction name))
  else .error (.unknownName (.unknownVariable name))

/-- Checks a name of a base and a property. -/
def checkDotted (v : Vocabulary) (base property name : String) : Except Cause Unit :=
  if v.available.contains name then .ok ()
  else if base = "out" then .error (.unknownName (.outputUndefined property name))
  else match v.fields.get? base with
    | some f =>
      match f.catalogKind? with
      | none => .error (.unknownName (.plainField base f.kind name))
      | some kind =>
        if v.book.catalog.fieldHasProperty f property then .ok ()
        else .error (.unknownName (.propertyNowhere property kind f.catalogCategory name))
    | none =>
      match v.book.catalog.find? base with
      | some (kind, item) =>
        if (item.property? property).isSome then .ok ()
        else .error (.unknownName (.noProperty property kind base name))
      | none => .error (.unknownName (.unknownVariable name))

def checkName (v : Vocabulary) (name : String) : Except Cause (Option Warning) :=
  match splitName name with
  | (_, none) => v.checkPlain name
  | (base, some property) => (v.checkDotted base property name).map fun _ => none

def checkNode (v : Vocabulary) : Tree → Except Cause (Option Warning)
  | .name n => v.checkName n
  | .call function args =>
    (v.checkCall function args.length (Tree.call function args).source).map fun _ => none
  | _ => .ok none

/-- Checks all nodes of a tree, and gives the warnings without repetitions. -/
def checkTree (v : Vocabulary) (t : Tree) : Except Cause (List Warning) :=
  (t.nodes.mapM v.checkNode).map fun warnings => (warnings.filterMap id).eraseDups

end Vocabulary

end Costing.Formula

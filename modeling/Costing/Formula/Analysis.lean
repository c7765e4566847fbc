import Costing.Formula.Tree.Parser
import Costing.Formula.Vocabulary

/-! # Analysis of formulas

Every name in a text falls into one group by what it stands for.  The text may be half typed:
names are taken from its tokens, and only the numbers of arguments need a text that parses. -/

namespace Costing.Formula

/-- What a name in a text stands for. -/
inductive NameGroup where
  | value | output | fieldProperty | materialProperty | laborProperty | math | sharedCall | unknown
deriving DecidableEq

/-- A name that reads a property. -/
structure PropertyReference where
  name : String
  base : String
  property : String
deriving DecidableEq

/-- A call of a shared function, with the number of its arguments if the text parses. -/
structure FunctionCall where
  function : String
  count : Option Nat
deriving DecidableEq

/-- The names in a text by groups, each group without repetitions. -/
structure Analysis where
  values : List String
  outputs : List String
  unknown : List String
  fieldProperties : List PropertyReference
  materialProperties : List PropertyReference
  laborProperties : List PropertyReference
  math : List String
  calls : List FunctionCall

namespace Vocabulary

/-- The group of a name that is not called and has no property. -/
def groupPlain (v : Vocabulary) (name : String) : NameGroup :=
  if v.available.contains name || (v.book.catalog.find? name).isSome then .value
  else if (constant? name).isSome then .math
  else .unknown

/-- The group of a name with a property. -/
def groupDotted (v : Vocabulary) (name base : String) : NameGroup :=
  if v.available.contains name then if base = "out" then .output else .value
  else if ((v.fields.get? base).filter (·.isCatalog)).isSome then .fieldProperty
  else if (v.book.catalog.get? .material base).isSome then .materialProperty
  else if (v.book.catalog.get? .labor base).isSome then .laborProperty
  else .unknown

/-- The group of a name that is called. -/
def groupCall (v : Vocabulary) (name : String) : NameGroup :=
  if (Builtin.ofName? name).isSome then .math
  else if v.book.functions.contains name then .sharedCall
  else .unknown

def group (v : Vocabulary) (m : Mention) : NameGroup :=
  if m.isCall then v.groupCall m.text
  else if m.property.isSome then v.groupDotted m.text m.base
  else v.groupPlain m.text

def namesIn (v : Vocabulary) (g : NameGroup) (ms : List Mention) : List String :=
  ((ms.filter fun m => v.group m == g).map (·.text)).eraseDups

/-- The property references of one group among mentions. -/
def referencesIn (v : Vocabulary) (g : NameGroup) (ms : List Mention) : List PropertyReference :=
  ((ms.filter fun m => v.group m == g).map fun m =>
    PropertyReference.mk m.text m.base (m.property.getD "")).eraseDups

/-- The calls of shared functions in a text. -/
def callsIn (v : Vocabulary) (text : String) (ms : List Mention) : List FunctionCall :=
  match Tree.parse text with
  | .ok tree =>
    ((tree.calls.filter fun c => v.book.functions.contains c.1).map fun c =>
      FunctionCall.mk c.1 (some c.2.length)).eraseDups
  | .error _ =>
    (((ms.filter fun m => m.isCall && v.book.functions.contains m.text).map fun m =>
      FunctionCall.mk m.text none)).eraseDups

def analyze (v : Vocabulary) (text : String) : Analysis :=
  let ms := Mention.scan text
  { values := v.namesIn .value ms
    outputs := v.namesIn .output ms
    unknown := v.namesIn .unknown ms
    fieldProperties := v.referencesIn .fieldProperty ms
    materialProperties := v.referencesIn .materialProperty ms
    laborProperties := v.referencesIn .laborProperty ms
    math := v.namesIn .math ms
    calls := v.callsIn text ms }

end Vocabulary

end Costing.Formula

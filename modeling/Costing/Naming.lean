import Costing.Model.Module
import Costing.Settings
import Costing.Text.CharacterClass

/-! # Names for outputs and parameters

A person writes a label, and the name for formulas follows from it: the ASCII letters and digits
of the label in lower case, with one low line wherever blank characters, hyphens or low lines
stand between two of them.  A name that would start with a digit gets a low line in front.  If
the name is taken, case aside, the first free number is appended. -/

namespace Costing

/-! ## Names from labels -/

/-- The characters of a label that separate the words of a name. -/
def isWordBreak (c : Char) : Bool := Text.isBlank c || c == '-' || c == '_'

/-- The part of a name behind its first letter or digit; `gap` tells whether a word has just
ended. -/
def restOfName (gap : Bool) : List Char → List Char
  | [] => []
  | c :: cs =>
    if c.isAlphanum then
      (if gap then ['_', c.toLower] else [c.toLower]) ++ restOfName false cs
    else restOfName (gap || isWordBreak c) cs

/-- The characters of the name for a label; none if there is no ASCII letter or digit. -/
def nameCharsOfLabel (label : List Char) : List Char :=
  match label.dropWhile (!·.isAlphanum) with
  | [] => []
  | c :: cs =>
    let chars := c.toLower :: restOfName false cs
    if c.isDigit then '_' :: chars else chars

/-- The name for a label, or the empty text. -/
def nameOfLabel (label : String) : String := String.ofList (nameCharsOfLabel label.toList)

/-! ## Free names -/

def numbered (base : String) (n : Nat) : String := base ++ "_" ++ toString n

/-- A name that is not taken: the given one if possible, else the first free one with a number,
else the one with the greatest number. -/
def freeName (base : String) (taken : List String) : String :=
  if taken.contains base then
    (((List.range Settings.maxNameNumber).map fun i => numbered base (i + 1)).find?
      fun name => !taken.contains name).getD (numbered base Settings.maxNameNumber)
  else base

/-- A free name for a label, or the empty text. -/
def generatedName (label : String) (taken : List VariableName) : String :=
  let base := nameOfLabel label
  if base = "" then "" else freeName base (taken.map (·.folded))

/-! ## Checking names -/

/-- Why a name cannot be used for an output or a parameter. -/
inductive NameProblem where
  | outputBlank | outputReserved | outputNotIdentifier | takenByOutput | takenByField
  | parameterBlank | parameterNotIdentifier | takenByParameter
deriving DecidableEq

namespace NameProblem

def message : NameProblem → String
  | .outputBlank => "Variable name is required"
  | .outputReserved => "Variable name cannot start with " ++ "'" ++ outputPrefix ++ "'"
  | .outputNotIdentifier =>
    "Variable name must start with a letter or underscore and contain " ++
      "only letters, numbers, and underscores"
  | .takenByOutput => "Variable name must be unique (already used by another computed output)"
  | .takenByField => "Variable name must be unique (already used by a field)"
  | .parameterBlank => "Parameter name is required"
  | .parameterNotIdentifier =>
    "Parameter name must start with a letter or underscore and contain " ++
      "only letters, numbers, and underscores"
  | .takenByParameter => "Parameter name must be unique"

end NameProblem

/-- Whether a text is one of several names, case aside. -/
def isTaken (names : List VariableName) (name : String) : Bool :=
  (names.map (·.folded)).contains name.toLower

/-- What keeps a text from being the name of an output, if anything does. -/
def outputNameProblem? (outputs fields : List VariableName) (text : String) :
    Option NameProblem :=
  let name := Text.strip text
  if name = "" then some .outputBlank
  else if hasOutputPrefix name then some .outputReserved
  else if !isIdentifier name then some .outputNotIdentifier
  else if isTaken outputs name then some .takenByOutput
  else if isTaken fields name then some .takenByField
  else none

/-- What keeps a text from being the name of a parameter, if anything does. -/
def parameterNameProblem? (parameters : List VariableName) (text : String) :
    Option NameProblem :=
  let name := Text.strip text
  if name = "" then some .parameterBlank
  else if !isIdentifier name then some .parameterNotIdentifier
  else if isTaken parameters name then some .takenByParameter
  else none

/-- Parameters without the one at a position, if there is one. -/
def exceptAt (position : Option Nat) (parameters : List Parameter) : List Parameter :=
  match position with
  | some i => parameters.eraseIdx i
  | none => parameters

end Costing

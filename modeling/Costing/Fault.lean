import Costing.Model.Module
import Costing.Text.Quoted

/-! # Faults

Whatever keeps a formula from being accepted or computed is a fault.  A fault has a cause, from
which its kind, its wording and its subject (the identifier or expression at fault) follow, and
it remembers the innermost shared function during whose call it arose. -/

namespace Costing

/-- The kinds of faults. -/
inductive FaultKind where
  | malformed | unknownName | arity | evaluation | missingInput | missingSelection | brokenLink
  | incompatibleLink | unitMismatch
deriving DecidableEq

namespace FaultKind

def all : List FaultKind :=
  [.malformed, .unknownName, .arity, .evaluation, .missingInput, .missingSelection, .brokenLink,
   .incompatibleLink, .unitMismatch]

def word : FaultKind → String
  | .malformed => "SyntaxError"
  | .unknownName => "UnknownVariable"
  | .arity => "ArityError"
  | .evaluation => "EvaluationError"
  | .missingInput => "MissingRequiredInput"
  | .missingSelection => "MissingCatalogSelection"
  | .brokenLink => "BrokenLink"
  | .incompatibleLink => "IncompatibleLink"
  | .unitMismatch => "UnitMismatch"

def ofWord? (s : String) : Option FaultKind := all.find? (·.word == s)

theorem ofWord?_word (k : FaultKind) : ofWord? k.word = some k := by cases k <;> decide

end FaultKind

/-- What is told about a fault: its kind, its wording and its subject. -/
structure FaultReport where
  kind : FaultKind
  message : String
  subject : Option String
deriving DecidableEq

namespace FaultReport

/-- The same report with a note in front of its wording. -/
def preceded (note : String) (r : FaultReport) : FaultReport :=
  { r with message := note ++ ": " ++ r.message }

end FaultReport

/-! ## Causes -/

def named (s : String) : String := "'" ++ s ++ "'"

/-- Why a text is no formula. -/
inductive SyntaxFault where
  | empty
  | unexpectedCharacter (c : Char)
  | tooManyDots (name : String)
  | nestedTooDeeply
  | tooTall
  | incomplete
  | unexpectedNumber (text : String)
  | unexpectedName (text : String)
  | strayClosing
  | unexpectedSymbol (symbol : String)
  | unclosed
  | dottedCall (name : String)
deriving DecidableEq

namespace SyntaxFault

def message : SyntaxFault → String
  | .empty => "Formula is empty"
  | .unexpectedCharacter c =>
    "Unexpected character " ++ named (String.singleton c) ++ ". Check your formula syntax."
  | .tooManyDots name =>
    "Identifier " ++ named name ++ " may contain only one '.' (variable.property)"
  | .nestedTooDeeply => "Formula is nested too deeply"
  | .tooTall => "Formula is too long or nested too deeply"
  | .incomplete => "Formula is incomplete. Check for missing values or operators at the end."
  | .unexpectedNumber text =>
    "Unexpected number " ++ named text ++
      ". Check for missing operators (+, -, *, /) between values."
  | .unexpectedName text =>
    "Unexpected variable or function " ++ named text ++
      ". Check for missing operators or invalid function names."
  | .strayClosing =>
    "Unexpected closing parenthesis. Check for extra ')' or missing opening '('."
  | .unexpectedSymbol symbol =>
    "Unexpected " ++ named symbol ++ ". Check for missing values before or after operators."
  | .unclosed =>
    "Missing closing parenthesis. Check that all opening parentheses " ++
      "'(' have matching closing ones ')'."
  | .dottedCall name => "Property reference " ++ named name ++ " cannot be called like a function"

def subject : SyntaxFault → Option String
  | .unexpectedCharacter c => some (String.singleton c)
  | .tooManyDots name => some name
  | .unexpectedNumber text => some text
  | .unexpectedName text => some text
  | .strayClosing => some ")"
  | .unexpectedSymbol symbol => some symbol
  | .dottedCall name => some name
  | .empty | .nestedTooDeeply | .tooTall | .incomplete | .unclosed => none

end SyntaxFault

/-- Why a name has no meaning where it stands. -/
inductive NameFault where
  | uncalledFunction (name : String)
  | unknownVariable (name : String)
  | unknownFunction (name : String)
  /-- The base of a dotted name is neither a material nor a labor field. -/
  | notSelecting (base property name : String)
  /-- The item that a dotted name reads has no such property. -/
  | noProperty (property : String) (kind : CatalogKind) (item name : String)
  /-- No item that a field may select has the property. -/
  | propertyNowhere (property : String) (kind : CatalogKind) (category : Option String)
      (name : String)
  /-- A field of this type has no properties. -/
  | plainField (base : String) (kind : FieldType) (name : String)
  /-- An output has no value where it is referred to. -/
  | outputUnavailable (output name : String)
  /-- An output is unknown, or comes too late to be referred to. -/
  | outputUndefined (output name : String)
  /-- The expression of an output refers to itself or to a later output. -/
  | outputNotEarlier (output name : String)
deriving DecidableEq

namespace NameFault

def message : NameFault → String
  | .uncalledFunction name => named name ++ " is a function and must be called with arguments"
  | .unknownVariable name => "Unknown variable " ++ named name
  | .unknownFunction name => "Unknown function " ++ named name
  | .notSelecting base property _ =>
    "Field " ++ named base ++ " is not a material or labor field and has no property " ++
      named property
  | .noProperty property kind item _ =>
    "Property " ++ named property ++ " not found on " ++ kind.word ++ " " ++ named item
  | .propertyNowhere property kind category _ =>
    "Property " ++ named property ++ " does not exist on any " ++ kind.word ++ " item" ++
      (match category with
        | some c => if c = "" then "" else " in category " ++ named c
        | none => "")
  | .plainField base kind _ =>
    "Field " ++ named base ++ " is a " ++ kind.word ++
      " field; only material and labor fields have properties"
  | .outputUnavailable output _ => "Computed output " ++ named output ++ " is not available"
  | .outputUndefined output _ =>
    "Computed output " ++ named output ++ " is not defined or is not available here"
  | .outputNotEarlier output _ =>
    "Expression cannot reference computed output " ++ named output ++
      " because it is defined after this one or is the same output. Computed outputs " ++
      "can only reference previously defined computed outputs."

def subject : NameFault → String
  | .uncalledFunction name | .unknownVariable name | .unknownFunction name
  | .notSelecting _ _ name | .noProperty _ _ _ name | .propertyNowhere _ _ _ name
  | .plainField _ _ name | .outputUnavailable _ name | .outputUndefined _ name
  | .outputNotEarlier _ name => name

end NameFault

/-- Why the number of arguments of a call is wrong.  The first two arise in the evaluation of
a call, the others when it is checked; `source` is the text of the call. -/
inductive ArityFault where
  | builtin (function : String) (arity : Formula.Arity) (count : Nat) (source : String)
  | shared (function : String) (arity : Formula.Arity) (count : Nat) (source : String)
  | builtinCall (function : String) (count : Nat) (source : String)
  | sharedCall (function : String) (parameters : List String) (count : Nat) (source : String)
deriving DecidableEq

namespace ArityFault

def message : ArityFault → String
  | .builtin function arity count _ => s!"{function}() expects {arity.text}, got {count}"
  | .shared function arity count _ =>
    "Function " ++ named function ++ s!" expects {arity.text}, got {count}"
  | .builtinCall function count _ => s!"{function}() called with {count} argument(s)"
  | .sharedCall function parameters count _ =>
    "Function " ++ named function ++ " expects (" ++ String.intercalate ", " parameters ++
      s!") but was called with {count} argument(s)"

def subject : ArityFault → String
  | .builtin _ _ _ source | .shared _ _ _ source | .builtinCall _ _ source
  | .sharedCall _ _ _ source => source

end ArityFault

/-- Why a built-in function has no value for its arguments. -/
inductive ArgumentFault where
  | places (count : Int)
  | rootOfNegative
  | logOfNonPositive
  | logBase
  | infinityToWhole
  | undefinedToWhole
  | range
  | domain
deriving DecidableEq

/-- The wording of a fault of an argument. -/
def ArgumentFault.message : ArgumentFault → String
  | .places count => s!"round() decimals must be between -300 and 300, got {count}"
  | .rootOfNegative => "sqrt() of a negative number"
  | .logOfNonPositive => "log() of a non-positive number"
  | .logBase => "log() base must be positive and not 1"
  | .infinityToWhole => "cannot convert float infinity to integer"
  | .undefinedToWhole => "cannot convert float NaN to integer"
  | .range => "math range error"
  | .domain => "math domain error"

/-- A value inside a message: texts in quotes. -/
def FieldValue.quoted : FieldValue → String
  | .text s => Text.quoted s
  | v => v.plain

/-- Why a computation has no result. -/
inductive EvaluationFault where
  | divisionByZero (source : String)
  | invalidPower (source : String)
  | invalidArgument (source : String) (reason : ArgumentFault)
  /-- Too many bodies of shared functions are open. -/
  | tooManyBodies (function : String)
  /-- The evaluation ran out of room. -/
  | outOfRoom (formula : String)
  | notFinite (formula : String)
  | propertyBlank (property : String)
  | propertyIsText (property : String) (value : FieldValue)
  | fieldIsText (name text : String)
  | moduleNotFound (moduleId : String)
  | noCost (moduleName : String)

namespace EvaluationFault

def message : EvaluationFault → String
  | .divisionByZero source => "Division by zero in " ++ named source
  | .invalidPower source => "Invalid power in " ++ named source
  | .invalidArgument source reason =>
    "Invalid argument in " ++ named source ++ ": " ++ reason.message
  | .tooManyBodies function =>
    "Function " ++ named function ++ " is nested too deeply (recursive shared function?)"
  | .outOfRoom formula => "Formula " ++ named formula ++ " is nested too deeply to evaluate"
  | .notFinite formula => "Formula " ++ named formula ++ " did not produce a finite number"
  | .propertyBlank property => "Property " ++ named property ++ " has no value"
  | .propertyIsText property value =>
    "Property " ++ named property ++ " is text (" ++ value.quoted ++
      ") and cannot be used in arithmetic"
  | .fieldIsText name text =>
    "Field " ++ named name ++ " holds text (" ++ Text.quoted text ++
      ") and cannot be used in arithmetic"
  | .moduleNotFound moduleId => "Module " ++ named moduleId ++ " not found"
  | .noCost moduleName => "Module " ++ named moduleName ++ " has no calculated cost"

def subject : EvaluationFault → Option String
  | .divisionByZero source | .invalidPower source | .invalidArgument source _ => some source
  | .tooManyBodies function => some function
  | .outOfRoom formula | .notFinite formula => some formula
  | .propertyBlank property | .propertyIsText property _ => some property
  | .fieldIsText name _ => some name
  | .moduleNotFound moduleId => some moduleId
  | .noCost _ => none

end EvaluationFault

/-- A field without a value that is needed. -/
inductive InputFault where
  | blank (name : String)
  | requiredBlank (label name : String)
deriving DecidableEq

/-- A material or labor field without a usable selection; `neededFor` is the name that reads
it. -/
inductive SelectionFault where
  | nothing (kind : CatalogKind) (field neededFor : String)
  | notInCatalog (kind : CatalogKind) (item field neededFor : String)
deriving DecidableEq

/-- A field whose link is broken. -/
inductive LinkFault where
  | field (name : String) (reason : BrokenReason)
  | requiredField (label : String) (reason : BrokenReason) (name : String)
deriving DecidableEq

/-- Two sides of an operator whose units do not go together; `source` is the text of the whole
expression. -/
inductive UnitMismatch where
  | sum (adding : Bool) (left leftSource right rightSource source : String)
  | quotient (left leftSource right rightSource source : String)
  | unitlessBy (leftSource right rightSource source : String)
deriving DecidableEq

namespace UnitMismatch

def message : UnitMismatch → String
  | .sum adding left leftSource right rightSource _ =>
    "Cannot " ++ (if adding then "add " else "subtract ") ++ left ++ " (" ++ leftSource ++
      ") and " ++ right ++ " (" ++ rightSource ++ ")"
  | .quotient left leftSource right rightSource _ =>
    "Cannot divide " ++ left ++ " (" ++ leftSource ++ ") by " ++ right ++ " (" ++ rightSource ++
      ")"
  | .unitlessBy leftSource right rightSource _ =>
    "Cannot divide unitless (" ++ leftSource ++ ") by " ++ right ++ " (" ++ rightSource ++ ")"

def subject : UnitMismatch → String
  | .sum _ _ _ _ _ source | .quotient _ _ _ _ source | .unitlessBy _ _ _ source => source

end UnitMismatch

/-- The causes of faults, one constructor for each kind that a formula can run into. -/
inductive Cause where
  | malformed (fault : SyntaxFault)
  | unknownName (fault : NameFault)
  | arity (fault : ArityFault)
  | evaluation (fault : EvaluationFault)
  | missingInput (fault : InputFault)
  | missingSelection (fault : SelectionFault)
  | brokenLink (fault : LinkFault)
  | unitMismatch (fault : UnitMismatch)

namespace Cause

def kind : Cause → FaultKind
  | .malformed _ => .malformed
  | .unknownName _ => .unknownName
  | .arity _ => .arity
  | .evaluation _ => .evaluation
  | .missingInput _ => .missingInput
  | .missingSelection _ => .missingSelection
  | .brokenLink _ => .brokenLink
  | .unitMismatch _ => .unitMismatch

def message : Cause → String
  | .malformed f => f.message
  | .unknownName f => f.message
  | .arity f => f.message
  | .evaluation f => f.message
  | .missingInput (.blank name) => "Field " ++ named name ++ " has no value"
  | .missingInput (.requiredBlank label _) => "Required field " ++ named label ++ " has no value"
  | .missingSelection (.nothing kind field neededFor) =>
    "No " ++ kind.word ++ " selected for field " ++ named field ++ " (needed for " ++
      named neededFor ++ ")"
  | .missingSelection (.notInCatalog kind item field _) =>
    "Selected " ++ kind.word ++ " " ++ named item ++ " for field " ++ named field ++
      " is not in the catalog"
  | .brokenLink (.field name reason) =>
    "Field " ++ named name ++ " is linked to a source that is unavailable (" ++ reason.word ++ ")"
  | .brokenLink (.requiredField label reason _) =>
    "Required field " ++ named label ++ " is linked to a source that is unavailable (" ++
      reason.word ++ ")"
  | .unitMismatch f => f.message

def subject : Cause → Option String
  | .malformed f => f.subject
  | .unknownName f => some f.subject
  | .arity f => some f.subject
  | .evaluation f => f.subject
  | .missingInput (.blank name) => some name
  | .missingInput (.requiredBlank _ name) => some name
  | .missingSelection (.nothing _ _ neededFor) => some neededFor
  | .missingSelection (.notInCatalog _ _ _ neededFor) => some neededFor
  | .brokenLink (.field name _) => some name
  | .brokenLink (.requiredField _ _ name) => some name
  | .unitMismatch f => some f.subject

end Cause

/-! ## Faults -/

/-- A cause, and the innermost shared function during whose call it arose. -/
structure Fault where
  cause : Cause
  during : Option String := none

namespace Fault

def kind (f : Fault) : FaultKind := f.cause.kind

def subject (f : Fault) : Option String := f.cause.subject

def message (f : Fault) : String :=
  match f.during with
  | none => f.cause.message
  | some g => "Error evaluating function " ++ named g ++ ": " ++ f.cause.message

/-- Marks a fault as arisen during the call of a function, unless an inner call has done so. -/
def within (function : String) (f : Fault) : Fault :=
  match f.during with
  | none => { f with during := some function }
  | some _ => f

def report (f : Fault) : FaultReport := ⟨f.kind, f.message, f.subject⟩

end Fault

end Costing

import Costing.Decimal.Notation
import Costing.Text.CharacterClass

/-! # Values of fields

A field of a module instance holds a truth value, a number, a text or nothing.  When the value
of a field is drawn through a link, the link may turn out broken; the evaluation then receives
the reason in place of a value, together with the value stored in the field itself. -/

namespace Costing

/-- What is stored in a field.  Numbers that carry a unit are stored in base units. -/
inductive FieldValue where
  | blank
  | flag (value : Bool)
  | number (value : Float)
  | text (value : String)
deriving Inhabited

namespace FieldValue

/-- Whether there is nothing, or only blank characters. -/
def isBlank : FieldValue → Bool
  | .blank => true
  | .text s => Text.isBlankText s
  | _ => false

def plain : FieldValue → String
  | .blank => "None"
  | .flag b => if b then "True" else "False"
  | .number x => Decimal.text x
  | .text s => s

end FieldValue

/-- Why a link does not lead to a value. -/
inductive BrokenReason where
  | missingInstance  -- the target instance is not in the workspace
  | missingTarget    -- the target module does not declare the field or output
  | cycle            -- following links leads back to the field
  | targetFailed     -- the target output could not be computed
  | upstreamBroken   -- the target is itself broken
  | other (text : String)  -- a reason stated from outside the engine
deriving DecidableEq

namespace BrokenReason

def word : BrokenReason → String
  | .missingInstance => "missing_instance"
  | .missingTarget => "missing_target"
  | .cycle => "cycle"
  | .targetFailed => "target_failed"
  | .upstreamBroken => "upstream_broken"
  | .other s => s

def ofWord : String → BrokenReason
  | "missing_instance" => .missingInstance
  | "missing_target" => .missingTarget
  | "cycle" => .cycle
  | "target_failed" => .targetFailed
  | "upstream_broken" => .upstreamBroken
  | s => .other s

end BrokenReason

/-- What a field receives once links are followed. -/
inductive FieldInput where
  | given (value : FieldValue)
  | broken (reason : BrokenReason) (fallback : FieldValue)
deriving Inhabited

namespace FieldInput

/-- Whether a broken link stands in place of a value. -/
def isBroken : FieldInput → Bool
  | .given _ => false
  | .broken _ _ => true

/-- The value to show: that of the field itself where the link is broken. -/
def shown : FieldInput → FieldValue
  | .given v => v
  | .broken _ v => v

end FieldInput

end Costing

import Costing.Formula.Reference
import Costing.Formula.Tree.Parser
import Costing.Formula.UnitCategory

/-! # Validation of formulas

A formula is accepted when it parses, all its references have a meaning and its units go
together.  A verdict on an unknown name comes with suggestions for it. -/

namespace Costing.Formula

/-- Whether a formula is accepted. -/
inductive Verdict where
  | accepted (warnings : List Warning)
  | refused (cause : Cause) (suggestions : List String)
  /-- There is no expression although one is needed. -/
  | blank

namespace Verdict

def isAccepted : Verdict → Bool
  | .accepted _ => true
  | _ => false

end Verdict

namespace Vocabulary

/-- The warnings for a formula, or the first cause to refuse it. -/
def check (v : Vocabulary) (formula : String) : Except Cause (List Warning) := do
  let tree ← (Tree.parse formula).mapError .malformed
  let warnings ← v.checkTree tree
  let _ ← (v.category tree).mapError .unitMismatch
  pure warnings

/-- The suggestions that go with a cause, in alphabetical order: names in place of an unknown
one. -/
def suggestionsFor (v : Vocabulary) : Cause → List String
  | .unknownName f =>
    let names := suggest f.subject v.candidates [] Settings.suggestionLimit
    names.mergeSort fun a b => !decide (b < a)
  | _ => []

def refusal (v : Vocabulary) (cause : Cause) : Verdict := .refused cause (v.suggestionsFor cause)

def validate (v : Vocabulary) (formula : String) : Verdict :=
  match v.check formula with
  | .ok warnings => .accepted warnings
  | .error cause => v.refusal cause

end Vocabulary

end Costing.Formula

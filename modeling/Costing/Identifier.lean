/-! # Identifiers

Fields, computed outputs, catalog items, shared functions and their parameters are named by
identifiers: ASCII letters, digits and low lines, not starting with a digit. -/

namespace Costing

def isNameStart (c : Char) : Bool := c.isAlpha || c == '_'

def isNameChar (c : Char) : Bool := c.isAlphanum || c == '_'

def isIdentifier (s : String) : Bool :=
  match s.toList with
  | [] => false
  | c :: cs => isNameStart c && cs.all isNameChar

/-- The name of a field, a computed output, a catalog item, a shared function or a parameter. -/
structure VariableName where
  text : String
  valid : isIdentifier text = true
deriving DecidableEq

namespace VariableName

/-- The name if the text is an identifier. -/
def ofText? (s : String) : Option VariableName :=
  if h : isIdentifier s = true then some ⟨s, h⟩ else none

/-- The name without regard to case.  Identifiers are ASCII, so their ASCII lower case does. -/
def folded (n : VariableName) : String := n.text.toLower

end VariableName

end Costing

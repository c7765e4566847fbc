import Costing.Decimal.Reading
import Costing.Formula.Token

/-! # Trees of formulas

A parsed formula is a tree of numbers, names, signs, operators and calls.  `Tree.source` writes
a tree as a formula again: operators get parentheses wherever they stand inside another sign or
operator.  Signs get none, so the text of a sign that is raised to a power means the sign of the
power. -/

namespace Costing.Formula

/-- The operators between two operands. -/
inductive Operator where
  | add | subtract | multiply | divide | power
deriving DecidableEq, Repr

namespace Operator

def text : Operator → String
  | .add => "+"
  | .subtract => "-"
  | .multiply => "*"
  | .divide => "/"
  | .power => "^"

end Operator

/-- A parsed formula. -/
inductive Tree where
  | number (text : String)
  | name (name : String)
  | negate (operand : Tree)
  | binary (op : Operator) (left right : Tree)
  | call (function : String) (args : List Tree)
deriving Inhabited

namespace Tree

/-- The value of the text of a number.  Every number token can be read, so the default is
never taken. -/
def numeral (text : String) : Float := (Decimal.read? text).getD 0

/-- The text of an operand: operators stand in parentheses. -/
def wrapped : Tree → String → String
  | .binary _ _ _, text => "(" ++ text ++ ")"
  | _, text => text

mutual

def source : Tree → String
  | .number text => text
  | .name n => n
  | .negate operand => "-" ++ wrapped operand operand.source
  | .binary op left right =>
    wrapped left left.source ++ " " ++ op.text ++ " " ++ wrapped right right.source
  | .call function args => function ++ "(" ++ String.intercalate ", " (sources args) ++ ")"

def sources : List Tree → List String
  | [] => []
  | arg :: rest => arg.source :: sources rest

end

mutual

/-- The number of nodes on the longest way down. -/
def height : Tree → Nat
  | .number _ => 1
  | .name _ => 1
  | .negate operand => operand.height + 1
  | .binary _ left right => max left.height right.height + 1
  | .call _ args => heights args + 1

def heights : List Tree → Nat
  | [] => 0
  | arg :: rest => max arg.height (heights rest)

end

mutual

/-- A tree and all trees in it, each before those in it, from left to right. -/
def nodes : Tree → List Tree
  | .number text => [.number text]
  | .name n => [.name n]
  | .negate operand => .negate operand :: operand.nodes
  | .binary op left right => .binary op left right :: (left.nodes ++ right.nodes)
  | .call function args => .call function args :: nodesOf args

def nodesOf : List Tree → List Tree
  | [] => []
  | arg :: rest => arg.nodes ++ nodesOf rest

end

def name? : Tree → Option String
  | .name n => some n
  | _ => none

def call? : Tree → Option (String × List Tree)
  | .call function args => some (function, args)
  | _ => none

/-- The names that a tree refers to, in order of their first occurrence. -/
def names (t : Tree) : List String := (t.nodes.filterMap name?).eraseDups

def calls (t : Tree) : List (String × List Tree) := t.nodes.filterMap call?

end Tree

end Costing.Formula

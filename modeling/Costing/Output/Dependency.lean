import Costing.CycleSearch
import Costing.Formula.Tree.Parser
import Costing.Model.Module
import Costing.Text.Lowercase

/-! # What outputs depend on

The expression of an output refers to fields and to other outputs of its module, case aside.
`Module.dependencies` collects the fields on which an output depends directly or through outputs
that stand before it.  Outputs are visited depth first, each one once; the count of those not
yet visited bounds the search. -/

namespace Costing

/-- The names in an expression; none if it does not parse. -/
def referencedNames (expression : String) : List String :=
  match Formula.Tree.parse expression with
  | .ok tree => tree.names
  | .error _ => []

/-- The position of the output that a name means, with or without the prefix of outputs and
case aside. -/
def outputIndex? (outputs : List Output) (name : String) : Option (Fin outputs.length) :=
  outputs.findFinIdx? fun o => o.name.folded == Text.lower (dropOutputPrefix name)

namespace Module

/-- The outputs before a position that an expression refers to.  A name whose base is a field
means the field. -/
def earlierOutputs (m : Module) (limit : Nat) (expression : String) :
    List (Fin m.outputs.length) :=
  ((referencedNames expression).filter fun n =>
      (m.field? (Formula.splitName n).1).isNone).filterMap fun n =>
    (outputIndex? m.outputs n).filter fun i => decide (i.val < limit)

/-- The positions of outputs that are reached from pending ones, the last reference of an
expression first. -/
def reached (m : Module) (limit : Nat) (pending visited : List (Fin m.outputs.length)) :
    List (Fin m.outputs.length) :=
  match pending with
  | [] => visited
  | i :: pending =>
    if h : i ∈ visited then m.reached limit pending visited
    else m.reached limit
      ((m.earlierOutputs limit m.outputs[i].expression).reverse ++ pending) (visited ++ [i])
termination_by ((remaining (List.finRange m.outputs.length) visited).length, pending.length)
decreasing_by
  · exact Prod.Lex.right _ (by simp)
  · exact Prod.Lex.left _ _
      (length_remaining_lt (List.mem_finRange i) h (by simp [or_comm]))

def referencedFields (m : Module) (expression : String) : List String :=
  ((referencedNames expression).map fun n => (Formula.splitName n).1).filter fun base =>
    (m.field? base).isSome

/-- The fields on which an output depends, directly or through earlier outputs. -/
def dependencies (m : Module) (name : String) : List String :=
  match outputIndex? m.outputs name with
  | none => []
  | some i =>
    ((m.reached i.val [i] []).flatMap fun j => m.referencedFields m.outputs[j].expression).eraseDups

end Module

end Costing

import Costing.Fault
import Costing.Formula.Builtin

/-! # The wording of faults

`Fault.within` labels a fault with the shared function during whose call it arose, and remembers the
label.  A reader of the report has only its wording: `FaultReport.labelled` looks there for the
beginning of a label, and writes one in front if there is none.

The two agree (`Fault.report_labelled`) as long as the cause of the fault is not worded like a label
itself.  No cause is (`Cause.clashes`); of those about arities, some start with the name of the
function, and this holds for the functions that an evaluation calls (`clashes_builtin`). -/

namespace Costing

/-! ## Wordings that begin like a label -/

/-- How every label begins. -/
def labelStart : String := "Error evaluating function"

def IsLabelled (message : String) : Prop := labelStart.toList <+: message.toList

instance (message : String) : Decidable (IsLabelled message) :=
  inferInstanceAs (Decidable (labelStart.toList <+: message.toList))

/-- The report of a fault behind the call of a function: labelled, unless its wording begins like a
label. -/
def FaultReport.labelled (function : String) (r : FaultReport) : FaultReport :=
  if IsLabelled r.message then r
  else r.preceded ("Error evaluating function " ++ named function)

/-- A text differs from the beginning of a label, whatever follows it. -/
def ClashesWithLabel (start : String) : Prop :=
  ¬ labelStart.toList <+: start.toList ∧ ¬ start.toList <+: labelStart.toList

namespace ClashesWithLabel

theorem append {start : String} (clash : ClashesWithLabel start) (rest : String) :
    ClashesWithLabel (start ++ rest) := by
  rw [ClashesWithLabel, String.toList_append]
  constructor
  · intro labelled
    obtain within | within := List.prefix_or_prefix_of_prefix labelled (List.prefix_append _ _)
    · exact clash.1 within
    · exact clash.2 within
  · exact fun shorter => clash.2 ((List.prefix_append _ _).trans shorter)

theorem first {c : Char} (other : c ≠ 'E') (rest : List Char) :
    ClashesWithLabel (String.ofList (c :: rest)) := by
  simp [ClashesWithLabel, labelStart, other, other.symm]

theorem second {c : Char} (other : c ≠ 'r') (rest : List Char) :
    ClashesWithLabel (String.ofList ('E' :: c :: rest)) := by
  simp [ClashesWithLabel, labelStart, other, other.symm]

theorem quotation (s : String) : ClashesWithLabel (named s) :=
  ((first (by decide) _).append s).append "'"

end ClashesWithLabel

/-! Messages are put together from the left, and their first part tells them from a label. -/

theorem SyntaxFault.clashes (f : SyntaxFault) : ClashesWithLabel f.message := by
  cases f <;> unfold message <;> dsimp only
  all_goals repeat with_reducible apply ClashesWithLabel.append
  all_goals exact .first (by decide) _

theorem NameFault.clashes (f : NameFault) : ClashesWithLabel f.message := by
  cases f <;> unfold message <;> dsimp only
  all_goals repeat with_reducible apply ClashesWithLabel.append
  all_goals first
    | with_reducible exact .quotation _
    | exact .first (by decide) _
    | exact .second (by decide) _

theorem EvaluationFault.clashes (f : EvaluationFault) : ClashesWithLabel f.message := by
  cases f <;> unfold message <;> dsimp only
  all_goals repeat with_reducible apply ClashesWithLabel.append
  all_goals exact .first (by decide) _

theorem UnitMismatch.clashes (f : UnitMismatch) : ClashesWithLabel f.message := by
  cases f <;> unfold message <;> dsimp only
  all_goals repeat with_reducible apply ClashesWithLabel.append
  all_goals exact .first (by decide) _

/-- Only a wording that starts with the name of a function could be mistaken for a label. -/
theorem Cause.clashes {cause : Cause} (other : ∀ f, cause ≠ .arity f) :
    ClashesWithLabel cause.message := by
  cases cause with
  | arity f => exact absurd rfl (other f)
  | malformed f => exact f.clashes
  | unknownName f => exact f.clashes
  | evaluation f => exact f.clashes
  | unitMismatch f => exact f.clashes
  | missingInput f | missingSelection f | brokenLink f =>
    cases f <;> unfold message <;> dsimp only
    all_goals repeat with_reducible apply ClashesWithLabel.append
    all_goals exact .first (by decide) _

theorem clashes_builtin (f : Formula.Builtin) (arity : Formula.Arity) (count : Nat)
    (source : String) :
    ClashesWithLabel (Cause.arity (.builtin f.name arity count source)).message := by
  unfold Cause.message ArityFault.message
  dsimp only
  repeat with_reducible apply ClashesWithLabel.append
  cases f <;> exact .first (by decide) _

theorem clashes_shared (function : String) (arity : Formula.Arity) (count : Nat)
    (source : String) :
    ClashesWithLabel (Cause.arity (.shared function arity count source)).message := by
  unfold Cause.message ArityFault.message
  dsimp only
  repeat with_reducible apply ClashesWithLabel.append
  exact .first (by decide) _

/-! ## Reports of labelled faults -/

namespace Fault

theorem cause_within (f : Fault) (function : String) : (f.within function).cause = f.cause := by
  unfold within
  cases f.during <;> rfl

/-- A fault that remembers a call is labelled. -/
theorem isLabelled_of_during (cause : Cause) (g : String) :
    IsLabelled (Fault.mk cause (some g)).message := by
  have start : "Error evaluating function " = labelStart ++ " " := rfl
  rw [IsLabelled, message, start]
  simp [List.append_assoc, List.prefix_append]

/-- The wording tells whether a call has labelled the fault, unless its cause misleads. -/
theorem report_labelled (f : Fault) (unlabelled : ¬ IsLabelled f.cause.message)
    (function : String) : f.report.labelled function = (f.within function).report := by
  obtain ⟨cause, during⟩ := f
  cases during with
  | none => exact if_neg unlabelled
  | some g => exact if_pos (isLabelled_of_during cause g)

end Fault

end Costing

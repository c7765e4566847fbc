import Costing.Cost
import Costing.Proofs.Formula.Extremum
import Costing.Proofs.Output.Dependency

/-! # Failed outputs

An output that fails has no value for the expressions behind it.  An expression that names it all
the same has no number either, unless something else stands in for the name
(`Module.StandsIn`); so the fault reaches every output that refers to the failed one, and the cost
of the module (`failure_reaches_references`). -/

namespace Costing

open Formula (Scope splitName)

section
variable {m : Module} {book : Pricebook} {inputs : Table String FieldInput}
  {results : List OutputResult} (run : m.Run book inputs results) (declared : m.Declared inputs)
  {i : Fin m.outputs.length} (failed : valueAt results i.val = none)
include run declared failed

theorem valueAt_of_failed {j : Fin m.outputs.length} {n : String}
    (referenced : n ∈ referencedNames (m.outputs.get j).expression)
    (named : n = (m.outputs.get i).key ∨ n = (m.outputs.get i).name.text)
    (noStandIn : ¬m.StandsIn book n) : valueAt results j.val = none := by
  have noField : ∀ f ∈ m.fields, f.name.text ≠ n := by
    rintro f field rfl
    obtain key | text := named
    · exact Output.key_ne_text _ _ key.symm
    · exact Module.field_ne_output field (List.get_mem _ i) (congrArg String.toLower text)
  cases value : valueAt results j.val with
  | none => rfl
  | some x =>
    obtain ⟨y, resolved⟩ := run.resolve_of_valueAt value n referenced
    obtain ⟨z, sees⟩ := sees_of_resolve declared noStandIn noField resolved
    -- only the failed output is seen under its names
    obtain ⟨k, index, _, seen, _⟩ := run.valueAt_of_sees sees
    rw [outputIndex?_of_named named] at index
    cases index
    rw [failed] at seen
    cases seen

theorem number?_formula_of_failed (referenced : (m.outputs.get i).key ∈ referencedNames m.formula)
    (noStandIn : ¬m.StandsIn book (m.outputs.get i).key) :
    (Formula.evaluate (m.formulaScope book inputs (outputValues results)) m.formula).number? =
      none := by
  have unseen : (m.formulaScope book inputs (outputValues results)).values.get?
      (m.outputs.get i).key = none := by
    rw [Module.formulaScope, Scope.get?_extend, Table.get?_mapValues, run.get?_outputValues, failed,
      Module.get?_ofInputs_of_noField declared fun f _ => (Output.key_ne_text _ f.name).symm]
    rfl
  cases outcome : (Formula.evaluate _ m.formula).number? with
  | none => rfl
  | some x =>
    obtain ⟨t, parsed, resolved⟩ := Formula.resolve_of_number? outcome
    obtain ⟨y, found⟩ := resolved _ ((mem_referencedNames parsed).mp referenced)
    exact absurd (Module.standsIn_of_resolve Scope.exists_field_of_selection unseen found) noStandIn

end

/-- The cost of a module is a fault, or there is none at all because the formula reaches a call for
the greatest or least of one number alone. -/
def Module.CostFails (m : Module) (book : Pricebook) (inputs : Table String FieldInput)
    (results : List OutputResult) (id : String) : Prop :=
  (∃ c, m.cost book inputs id = .ok c ∧ c.cost = none ∧ c.fault.isSome = true) ∨
    m.cost book inputs id = .error .loneExtremum ∧
      Formula.ReachesLoneExtremum (m.formulaScope book inputs (outputValues results)) m.formula

section
variable {m : Module} {book : Pricebook} {inputs : Table String FieldInput}

theorem evaluateFormula_of_numberless {outputs : Table String Float}
    (numberless :
      (Formula.evaluate (m.formulaScope book inputs outputs) m.formula).number? = none) :
    (∃ fault, m.evaluateFormula book inputs outputs = .ok (.error fault)) ∨
      m.evaluateFormula book inputs outputs = .error .loneExtremum ∧
        Formula.ReachesLoneExtremum (m.formulaScope book inputs outputs) m.formula := by
  rw [Module.evaluateFormula]
  cases m.unmet? inputs with
  | some cause => exact .inl ⟨_, rfl⟩
  | none =>
    cases outcome : Formula.evaluate (m.formulaScope book inputs outputs) m.formula with
    | value x => rw [outcome] at numberless; cases numberless
    | fault fault => exact .inl ⟨fault, rfl⟩
    | crash => exact .inr ⟨rfl, Formula.evaluate_eq_crash_iff.mp outcome⟩

theorem costFails_of_formula {results : List OutputResult}
    (run : m.computeOutputs book inputs = .ok results)
    (numberless : (Formula.evaluate (m.formulaScope book inputs (outputValues results))
      m.formula).number? = none) (id : String) : m.CostFails book inputs results id := by
  obtain ⟨fault, evaluated⟩ | ⟨evaluated, reaches⟩ := evaluateFormula_of_numberless numberless
  · exact .inl ⟨_, bind_eq_ok_iff.mpr ⟨_, run, bind_eq_ok_iff.mpr ⟨_, evaluated, rfl⟩⟩, rfl, rfl⟩
  · exact .inr ⟨bind_eq_error_iff.mpr (.inr ⟨_, run, bind_eq_error_iff.mpr (.inl evaluated)⟩),
      reaches⟩

end

/-- A failed output leaves no number to the outputs that refer to it, nor to the cost of the module
if the formula does, unless something stands in for its name. -/
theorem failure_reaches_references (m : Module) (book : Pricebook)
    (inputs : Table String FieldInput) (declared : m.Declared inputs)
    (results : List OutputResult) (run : m.computeOutputs book inputs = .ok results) (o : Output)
    (output : o ∈ m.outputs) (failed : (outputFaults results).contains o.name.text = true) :
    (∀ p ∈ m.outputs, ∀ n ∈ referencedNames p.expression, n = o.key ∨ n = o.name.text →
      ¬m.StandsIn book n → (outputFaults results).contains p.name.text = true ∧
        (outputValues results).get? p.key = none) ∧
    (o.key ∈ referencedNames m.formula → ¬m.StandsIn book o.key →
      ∀ id, m.CostFails book inputs results id) := by
  obtain ⟨i, rfl⟩ := List.mem_iff_get.mp output
  have computed := run_of_computeOutputs run
  have missing := (computed.contains_outputFaults_iff i).mp failed
  refine ⟨fun p output n referenced named noStandIn => ?_, fun referenced noStandIn id => ?_⟩
  · obtain ⟨j, rfl⟩ := List.mem_iff_get.mp output
    have valueless := valueAt_of_failed computed declared missing referenced named noStandIn
    rw [computed.contains_outputFaults_iff, computed.get?_outputValues]
    exact ⟨valueless, valueless⟩
  · exact costFails_of_formula run
      (number?_formula_of_failed computed declared missing referenced noStandIn) id

/-! A division that fails, and what refers to it by both of its names. -/

def ratioModule : Module :=
  { wallModule with
    outputs := [plainOutput ⟨"ratio", by decide⟩ "1 / width",
      plainOutput ⟨"double", by decide⟩ "ratio + out.ratio"]
    formula := "out.ratio"
    distinct := by decide +kernel }

/-- The same division under the name of a constant. -/
def piModule : Module :=
  { wallModule with
    outputs := [plainOutput ⟨"pi", by decide⟩ "1 / width", plainOutput ⟨"next", by decide⟩ "pi * 2"]
    formula := "out.pi"
    distinct := by decide +kernel }

theorem unambiguous_ratioModule : ratioModule.Unambiguous (.ofLists [] [] []) :=
  Module.unambiguous_of_noItems (by decide +kernel) (by decide +kernel)

/-- A failed division reaches the output behind it, and the cost. -/
theorem failure_reaches_references_of_ratio :
    ∃ results,
      ratioModule.computeOutputs (.ofLists [] [] []) (wallInputs (.number 0)) = .ok results ∧
      (outputFaults results).contains "double" = true ∧
      ratioModule.CostFails (.ofLists [] [] []) (wallInputs (.number 0)) results "a" := by
  obtain ⟨results, run, failed⟩ : ∃ results,
      ratioModule.computeOutputs (.ofLists [] [] []) (wallInputs (.number 0)) = .ok results ∧
        (outputFaults results).contains "ratio" = true :=
    exists_ok_of_check (by decide +kernel)
  have declared : ratioModule.Declared (wallInputs (.number 0)) :=
    declared_wallInputs (.head _) rfl _
  have index : outputIndex? ratioModule.outputs "out.ratio" = some ⟨0, by decide⟩ := by
    decide +kernel
  have noStandIn := unambiguous_ratioModule.not_standsIn index (by decide +kernel)
  obtain ⟨outputs, cost⟩ := failure_reaches_references ratioModule _ _ declared _ run _
    (List.get_mem ratioModule.outputs ⟨0, by decide⟩) failed
  obtain ⟨fault, _⟩ := outputs _ (List.get_mem ratioModule.outputs ⟨1, by decide⟩) "out.ratio"
    (by decide +kernel) (.inl rfl) noStandIn
  exact ⟨results, run, fault, cost (by decide +kernel) noStandIn "a"⟩

/-- A constant stands in for a failed output of its name. -/
theorem constant_stands_in :
    piModule.Declared (wallInputs (.number 0)) ∧
    "pi" ∈ referencedNames (piModule.outputs.get ⟨1, by decide⟩).expression ∧
    ∃ results, piModule.computeOutputs (.ofLists [] [] []) (wallInputs (.number 0)) = .ok results ∧
      (outputFaults results).contains "pi" = true ∧
      (outputValues results).contains "out.next" = true := by
  obtain ⟨results, run, both⟩ : ∃ results,
      piModule.computeOutputs (.ofLists [] [] []) (wallInputs (.number 0)) = .ok results ∧
        ((outputFaults results).contains "pi" &&
          (outputValues results).contains "out.next") = true :=
    exists_ok_of_check (by decide +kernel)
  rw [Bool.and_eq_true] at both
  exact ⟨declared_wallInputs (.head _) rfl _, by decide +kernel, results, run, both⟩

end Costing

import Costing.Cost
import Costing.Proofs.Output.Results
import Mathlib.Data.List.Basic

/-! # What a cost depends on

A module reads its inputs at the names in its expressions and at its required fields, and nowhere
else.  Where two tables of inputs give it the same there, the cost and all that is recorded with it
are the same (`Module.cost_congr`).

An input under the key of an output is not read once the output has been computed, for the outputs
stand before the inputs in every scope.  `Module.Shielded` says when this is so, and the inputs may
differ at such a name.  A table without keys of outputs is therefore told apart from one with such
keys only where an expression reads a key whose output it lacks (`Module.sameReadings_of_plain`). -/

namespace Costing

open Formula (Scope splitName)

/-! ## Records of costs -/

namespace InstanceCost

/-- What is recorded of the outputs and the formula of a module. -/
def ofResults (id : String) (results : List OutputResult) : Except Fault Float → InstanceCost
  | .ok x => ⟨id, some x, none, outputValues results, outputFaults results⟩
  | .error fault => ⟨id, none, some fault.report, outputValues results, outputFaults results⟩

variable {id id' : String} {results : List OutputResult} {outcome : Except Fault Float}

theorem values_ofResults : (ofResults id results outcome).values = outputValues results := by
  cases outcome <;> rfl

theorem renamed_ofResults :
    { ofResults id results outcome with instanceId := id' } = ofResults id' results outcome := by
  cases outcome <;> rfl

end InstanceCost

/-! ## What a module reads -/

namespace Module

/-- The input that a module has under a name.  A declared field without one is blank. -/
def input? (m : Module) (inputs : Table String FieldInput) (name : String) : Option FieldInput :=
  if (m.field? name).isSome then some ((inputs.get? name).getD (.given .blank))
  else inputs.get? name

/-- The expressions of a module in the order in which they are evaluated, the formula last. -/
def expressions (m : Module) : List String := m.outputs.map (·.expression) ++ [m.formula]

/-- A module looks at a name: it requires the field, or refers to the name or to a property of
it. -/
def Reads (m : Module) (name : String) : Prop :=
  (∃ f ∈ m.fields, f.required = true ∧ f.name.text = name) ∨
    ∃ e ∈ m.expressions, ∃ n ∈ referencedNames e, name = n ∨ name = (splitName n).1

/-- At a position among the expressions, a name is the key of an output that has been computed
before. -/
def Shielded (m : Module) (computed : Table String Float) (position : Nat) (name : String) :
    Prop :=
  ∃ j : Fin m.outputs.length, j.val < position ∧ (m.outputs.get j).key = name ∧
    computed.contains name = true

/-- No expression reads an input behind the prefix of outputs: where it names one, the output has
been computed. -/
def Shields (m : Module) (inputs : Table String FieldInput) (computed : Table String Float) :
    Prop :=
  ∀ {position : Nat} {e : String}, m.expressions[position]? = some e → ∀ n ∈ referencedNames e,
    hasOutputPrefix n = true → inputs.contains n = true → m.Shielded computed position n

/-- Two tables of inputs that a module does not tell apart, given the values of its outputs. -/
structure SameReadings (m : Module) (computed : Table String Float)
    (inputs inputs' : Table String FieldInput) : Prop where
  required : ∀ f ∈ m.fields, f.required = true →
    m.input? inputs f.name.text = m.input? inputs' f.name.text
  whole : ∀ {position : Nat} {e : String}, m.expressions[position]? = some e →
    ∀ n ∈ referencedNames e,
      m.input? inputs n = m.input? inputs' n ∨ m.Shielded computed position n
  base : ∀ e ∈ m.expressions, ∀ n ∈ referencedNames e,
    m.input? inputs (splitName n).1 = m.input? inputs' (splitName n).1

section
variable {m : Module} {book : Pricebook} {inputs inputs' : Table String FieldInput}
  {name : String}

theorem input?_congr (same : inputs.get? name = inputs'.get? name) :
    m.input? inputs name = m.input? inputs' name := by
  rw [input?, input?, same]

theorem get?_indexBy_eq_field? : (Table.indexBy (·.name.text) m.fields).get? name =
    m.field? name :=
  (Table.find?_eq_get?_indexBy (VariableName.nodup_texts m.nodup_fields) name).symm

theorem input?_of_field {f : Field} (field : f ∈ m.fields) :
    m.input? inputs f.name.text = some ((inputs.get? f.name.text).getD (.given .blank)) := by
  have declared : (m.field? f.name.text).isSome = true := by
    rw [← get?_indexBy_eq_field?, get?_indexBy_field field]
    rfl
  rw [input?, if_pos declared]

/-- No field has a name with the prefix of outputs. -/
theorem input?_of_hasOutputPrefix (here : hasOutputPrefix name = true) :
    m.input? inputs name = inputs.get? name := by
  have undeclared : m.field? name = none := by
    cases found : m.field? name with
    | none => rfl
    | some f =>
      obtain ⟨_, rfl⟩ := mem_of_field? found
      rw [hasOutputPrefix_of_plain f.name.plain] at here
      cases here
  rw [input?, undeclared]
  rfl

/-- Inputs without keys of outputs are not told apart from others that give the same for the plain
names that are read and have keys only where outputs shield them. -/
theorem sameReadings_of_plain {computed : Table String Float}
    (unprefixed : ∀ n, hasOutputPrefix n = true → inputs.get? n = none)
    (plain : ∀ n, hasOutputPrefix n = false → m.Reads n → m.input? inputs n = m.input? inputs' n)
    (shields : m.Shields inputs' computed) : m.SameReadings computed inputs inputs' where
  required f field required :=
    plain _ (hasOutputPrefix_of_plain f.name.plain) (.inl ⟨f, field, required, rfl⟩)
  whole := by
    intro position e here n referenced
    cases behind : hasOutputPrefix n with
    | false =>
      exact .inl (plain n behind (.inr ⟨e, List.mem_of_getElem? here, n, referenced, .inl rfl⟩))
    | true =>
      cases stored : inputs'.get? n with
      | none =>
        left
        rw [input?_of_hasOutputPrefix behind, input?_of_hasOutputPrefix behind, stored,
          unprefixed n behind]
      | some input => exact .inr (shields here n referenced behind (Table.contains_of_get? stored))
  base e among n referenced :=
    plain _ (hasOutputPrefix_of_plain (Formula.plain_base n))
      (.inr ⟨e, among, n, referenced, .inr rfl⟩)

/-- Inputs under plain names only need no shield. -/
theorem shields_of_unprefixed {computed : Table String Float}
    (unprefixed : ∀ n, inputs.contains n = true → hasOutputPrefix n = false) :
    m.Shields inputs computed := by
  intro position e _ n _ behind stored
  rw [unprefixed n stored] at behind
  cases behind

/-- The scope of inputs shows what the module has under each name. -/
theorem get?_ofInputs_congr (same : m.input? inputs name = m.input? inputs' name) :
    (Scope.ofInputs book m.fields inputs).values.get? name =
      (Scope.ofInputs book m.fields inputs').values.get? name := by
  rw [Scope.get?_ofInputs, Scope.get?_ofInputs, get?_indexBy_eq_field?]
  unfold input? at same
  cases found : m.field? name with
  | some f =>
    simp only [found, Option.isSome_some, if_true, Option.some.injEq] at same
    simp only [same]
  | none =>
    simp only [found, Option.isSome_none, Bool.false_eq_true, if_false] at same
    simp only [same]

theorem unmet?_congr (same : ∀ f ∈ m.fields, f.required = true →
      m.input? inputs f.name.text = m.input? inputs' f.name.text) :
    m.unmet? inputs = m.unmet? inputs' := by
  rw [unmet?, unmet?, ← List.head?_filterMap, ← List.head?_filterMap]
  refine congrArg List.head? (List.filterMap_congr fun f member => ?_)
  obtain ⟨field, required⟩ := List.mem_filter.mp member
  have input := same f field required
  rw [input?_of_field field, input?_of_field field, Option.some.injEq] at input
  rw [input]

/-! ## The scopes of the expressions -/

theorem get?_extend_congr {extra : Table String FieldInput}
    (same : m.input? inputs name = m.input? inputs' name ∨ extra.contains name = true) :
    ((Scope.ofInputs book m.fields inputs).extend extra).values.get? name =
      ((Scope.ofInputs book m.fields inputs').extend extra).values.get? name := by
  rw [Scope.get?_extend, Scope.get?_extend]
  obtain same | hidden := same
  · rw [get?_ofInputs_congr same]
  · obtain ⟨input, found⟩ := Option.isSome_iff_exists.mp hidden
    rw [found]
    rfl

theorem resolve_extend_congr {extra : Table String FieldInput}
    (whole : m.input? inputs name = m.input? inputs' name ∨ extra.contains name = true)
    (base : m.input? inputs (splitName name).1 = m.input? inputs' (splitName name).1) :
    ((Scope.ofInputs book m.fields inputs).extend extra).resolve name =
      ((Scope.ofInputs book m.fields inputs').extend extra).resolve name := by
  apply Scope.resolve_congr
  · exact ⟨rfl, rfl⟩
  · exact get?_extend_congr whole
  · exact get?_extend_congr (.inl base)

theorem Run.contains_of_shielded {results : List OutputResult} (run : m.Run book inputs results)
    {position : Nat} (shielded : m.Shielded (outputValues results) position name) :
    (visibleValues (results.take position)).contains name = true := by
  obtain ⟨j, before, rfl, computed⟩ := shielded
  rw [Table.contains, run.get?_outputValues, Option.isSome_iff_exists] at computed
  obtain ⟨x, value⟩ := computed
  exact contains_visibleValues (run.sees_of_valueAt before value (.inl rfl))

/-- An expression has the same value for inputs that are the same at the names in it. -/
theorem evaluate_extend_congr {extra : Table String FieldInput} {expression : String}
    (whole : ∀ n ∈ referencedNames expression,
      m.input? inputs n = m.input? inputs' n ∨ extra.contains n = true)
    (base : ∀ n ∈ referencedNames expression,
      m.input? inputs (splitName n).1 = m.input? inputs' (splitName n).1) :
    Formula.evaluate ((Scope.ofInputs book m.fields inputs).extend extra) expression =
      Formula.evaluate ((Scope.ofInputs book m.fields inputs').extend extra) expression := by
  apply Formula.evaluate_congr
  · exact ⟨rfl, rfl⟩
  intro t parsed n member
  have referenced : n ∈ referencedNames expression := (mem_referencedNames parsed).mpr member
  exact resolve_extend_congr (whole n referenced) (base n referenced)

/-! ## Outputs and cost -/

variable {results : List OutputResult}

theorem SameReadings.run (same : m.SameReadings (outputValues results) inputs inputs')
    (run : m.Run book inputs results) : m.Run book inputs' results := by
  refine ⟨run.outputs, fun {j r} found => ?_⟩
  have here : m.expressions[j]? = some r.output.expression := by
    have inOutputs : m.outputs[j]? = some r.output := by rw [run.getElem?_outputs, found]; rfl
    rw [expressions, List.getElem?_append_left, List.getElem?_map, inOutputs]
    · rfl
    · rw [List.length_map]
      exact (List.getElem?_eq_some_iff.mp inOutputs).1
  rw [← run.each found, computeOutput, computeOutput,
    evaluate_extend_congr
      (fun n referenced => (same.whole here n referenced).imp_right run.contains_of_shielded)
      (same.base _ (List.mem_of_getElem? here))]

theorem SameReadings.evaluateFormula (same : m.SameReadings (outputValues results) inputs inputs') :
    m.evaluateFormula book inputs (outputValues results) =
      m.evaluateFormula book inputs' (outputValues results) := by
  have last : m.expressions[m.outputs.length]? = some m.formula := by simp [expressions]
  rw [Module.evaluateFormula, Module.evaluateFormula, unmet?_congr same.required, formulaScope,
    formulaScope, evaluate_extend_congr (fun n referenced => ?_)
      (same.base _ (List.mem_of_getElem? last))]
  refine (same.whole last n referenced).imp_right fun ⟨_, _, _, computed⟩ => ?_
  rwa [Table.contains_mapValues]

/-- The steps behind a cost. -/
theorem cost_eq_ok_iff {id : String} {c : InstanceCost} :
    m.cost book inputs id = .ok c ↔ ∃ results outcome, m.computeOutputs book inputs = .ok results ∧
      m.evaluateFormula book inputs (outputValues results) = .ok outcome ∧
      c = .ofResults id results outcome := by
  constructor
  · intro run
    obtain ⟨results, computed, rest⟩ := bind_eq_ok_iff.mp run
    obtain ⟨outcome, evaluated, made⟩ := bind_eq_ok_iff.mp rest
    refine ⟨results, outcome, computed, evaluated, ?_⟩
    cases outcome <;> exact (Except.ok.inj made).symm
  · rintro ⟨results, outcome, computed, evaluated, rfl⟩
    refine bind_eq_ok_iff.mpr ⟨results, computed, bind_eq_ok_iff.mpr ⟨outcome, evaluated, ?_⟩⟩
    cases outcome <;> rfl

/-- A module that does not tell two tables of inputs apart costs the same for both, or fails in the
same way. -/
theorem cost_congr {id : String} {c : InstanceCost} (run : m.cost book inputs id = .ok c)
    (same : m.SameReadings c.values inputs inputs') (id' : String) :
    m.cost book inputs' id' = .ok { c with instanceId := id' } := by
  obtain ⟨results, outcome, computed, evaluated, rfl⟩ := cost_eq_ok_iff.mp run
  rw [InstanceCost.values_ofResults] at same
  rw [same.evaluateFormula] at evaluated
  have computed' := computeOutputs_of_run (same.run (run_of_computeOutputs computed))
  refine cost_eq_ok_iff.mpr ⟨results, outcome, computed', evaluated, ?_⟩
  rw [InstanceCost.renamed_ofResults]

/-- The cost of an instance carries its identifier. -/
theorem renamed_of_cost {id : String} {c : InstanceCost} (run : m.cost book inputs id = .ok c) :
    { c with instanceId := id } = c := by
  obtain ⟨results, outcome, _, _, rfl⟩ := cost_eq_ok_iff.mp run
  rw [InstanceCost.renamed_ofResults]

end

end Module

/-- The values in a cost are those of the outputs. -/
theorem results_of_cost {m : Module} {book : Pricebook} {inputs : Table String FieldInput}
    {id : String} {c : InstanceCost} (run : m.cost book inputs id = .ok c) :
    ∃ results, m.computeOutputs book inputs = .ok results ∧ c.values = outputValues results := by
  obtain ⟨results, outcome, computed, _, rfl⟩ := Module.cost_eq_ok_iff.mp run
  exact ⟨results, computed, InstanceCost.values_ofResults⟩

end Costing

import Costing.Proofs.Output.Failure

/-! # Outputs from first to last

Every output of a module comes to a value, listed under its key, or to a fault, listed under its
name, and nothing else is listed.  An output sees only those before it.  So modules with the same
fields and the same first outputs come to the same with these, whatever outputs follow
(`outputs_are_causal`).

`Module.Run.firstOutputs` carries the argument: what a run came to up to some position is the run of
the module that ends there. -/

namespace Costing

/-- The module that ends behind the first so many outputs. -/
def Module.firstOutputs (m : Module) (count : Nat) : Module :=
  { m with
    outputs := m.outputs.take count
    distinct := by
      have fewer : (declaredNames m.fields (m.outputs.take count)).Sublist
          (declaredNames m.fields m.outputs) :=
        ((List.take_sublist ..).map _).append_left _
      exact m.distinct.sublist (fewer.map _) }

/-- The same value or the same fault is listed for an output. -/
structure SameOutcome (results results' : List OutputResult) (o : Output) : Prop where
  value : (outputValues results).get? o.key = (outputValues results').get? o.key
  fault : (outputFaults results).get? o.name.text = (outputFaults results').get? o.name.text

section
variable {m m' : Module} {book : Pricebook} {inputs : Table String FieldInput}
  {results results' : List OutputResult}

/-- Nothing but the fields and the outputs of a module decides what its outputs come to. -/
theorem computeOutputs_of_sameOutputs (fields : m'.fields = m.fields)
    (outputs : m'.outputs = m.outputs) :
    m'.computeOutputs book inputs = m.computeOutputs book inputs := by
  rw [Module.computeOutputs, Module.computeOutputs, fields, outputs]

theorem Module.Run.exists_mem (run : m.Run book inputs results) {o : Output}
    (output : o ∈ m.outputs) : ∃ r ∈ results, r.output = o := by
  rwa [← run.outputs, List.mem_map] at output

/-- An output stands in one of the two lists only. -/
theorem Module.Run.value_or_fault (run : m.Run book inputs results) {o : Output}
    (output : o ∈ m.outputs) :
    (outputFaults results).contains o.name.text = !(outputValues results).contains o.key := by
  obtain ⟨r, member, rfl⟩ := run.exists_mem output
  rw [Table.contains, Table.contains, run.get?_outputFaults_of_mem member,
    run.get?_outputValues_of_mem member]
  exact r.isSome_fault?

theorem Module.Run.exists_output_of_value (run : m.Run book inputs results) {key : String}
    (listed : key ∈ (outputValues results).keys) : ∃ o ∈ m.outputs, o.key = key := by
  rw [outputValues_eq, Table.mem_keys_ofValues] at listed
  obtain ⟨r, member, _, named⟩ := listed
  exact ⟨r.output, run.outputs ▸ List.mem_map_of_mem member, named⟩

theorem Module.Run.exists_output_of_fault (run : m.Run book inputs results) {name : String}
    (listed : name ∈ (outputFaults results).keys) : ∃ o ∈ m.outputs, o.name.text = name := by
  rw [outputFaults_eq, Table.mem_keys_ofValues] at listed
  obtain ⟨r, member, _, named⟩ := listed
  exact ⟨r.output, run.outputs ▸ List.mem_map_of_mem member, named⟩

/-- What is listed for an output comes from its own result, wherever that stands. -/
theorem Module.Run.sameOutcome (run : m.Run book inputs results)
    (run' : m'.Run book inputs results') {r : OutputResult} (member : r ∈ results)
    (member' : r ∈ results') : SameOutcome results results' r.output where
  value := by rw [run.get?_outputValues_of_mem member, run'.get?_outputValues_of_mem member']
  fault := by rw [run.get?_outputFaults_of_mem member, run'.get?_outputFaults_of_mem member']

/-- The first results of a run are the run of the first outputs. -/
theorem Module.Run.firstOutputs (run : m.Run book inputs results) (count : Nat) :
    (m.firstOutputs count).Run book inputs (results.take count) where
  outputs := by
    rw [List.map_take, run.outputs]
    rfl
  each := by
    intro j r found
    obtain ⟨inside, here⟩ : j < count ∧ results[j]? = some r := by
      simpa [List.getElem?_take] using found
    -- a result among the first ones has all the results before it among them
    have before : (results.take count).take j = results.take j := by
      rw [List.take_take, Nat.min_eq_left (Nat.le_of_lt inside)]
    rw [before]
    exact run.each here

theorem computeOutputs_firstOutputs (run : m.computeOutputs book inputs = .ok results)
    (count : Nat) :
    (m.firstOutputs count).computeOutputs book inputs = .ok (results.take count) :=
  computeOutputs_of_run ((run_of_computeOutputs run).firstOutputs count)

/-- Modules with the same first outputs have the same first results. -/
theorem take_results_of_sameFirst {count : Nat} (fields : m'.fields = m.fields)
    (first : m'.outputs.take count = m.outputs.take count)
    (run : m.computeOutputs book inputs = .ok results)
    (run' : m'.computeOutputs book inputs = .ok results') :
    results'.take count = results.take count := by
  have same : (m'.firstOutputs count).computeOutputs book inputs =
      (m.firstOutputs count).computeOutputs book inputs :=
    computeOutputs_of_sameOutputs fields first
  rw [computeOutputs_firstOutputs run, computeOutputs_firstOutputs run'] at same
  exact Except.ok.inj same

end

/-- Every output has a value or a fault, and nothing else is listed.  What the first outputs come to
is what they come to in the module that ends behind them, and in every module that begins with
them. -/
theorem outputs_are_causal (m : Module) (book : Pricebook) (inputs : Table String FieldInput)
    (results : List OutputResult) (run : m.computeOutputs book inputs = .ok results) :
    (∀ o ∈ m.outputs, (outputFaults results).contains o.name.text =
      !(outputValues results).contains o.key) ∧
    (∀ key ∈ (outputValues results).keys, ∃ o ∈ m.outputs, o.key = key) ∧
    (∀ name ∈ (outputFaults results).keys, ∃ o ∈ m.outputs, o.name.text = name) ∧
    ∀ count,
      (∃ first, (m.firstOutputs count).computeOutputs book inputs = .ok first ∧
        ∀ o ∈ m.outputs.take count, SameOutcome first results o) ∧
      ∀ (m' : Module) (results' : List OutputResult), m'.fields = m.fields →
        m'.outputs.take count = m.outputs.take count →
          m'.computeOutputs book inputs = .ok results' →
            ∀ o ∈ m.outputs.take count, SameOutcome results' results o := by
  have all := run_of_computeOutputs run
  refine ⟨fun o output => all.value_or_fault output, fun key listed =>
    all.exists_output_of_value listed, fun name listed => all.exists_output_of_fault listed,
    fun count => ?_⟩
  have first := all.firstOutputs count
  refine ⟨⟨_, computeOutputs_of_run first, fun o output => ?_⟩,
    fun m' results' fields sameFirst run' o output => ?_⟩
  · obtain ⟨r, member, rfl⟩ := first.exists_mem output
    exact first.sameOutcome all member (List.mem_of_mem_take member)
  · obtain ⟨r, member, rfl⟩ := first.exists_mem output
    have member' : r ∈ results'.take count :=
      take_results_of_sameFirst fields sameFirst run run' ▸ member
    exact (run_of_computeOutputs run').sameOutcome all (List.mem_of_mem_take member')
      (List.mem_of_mem_take member)

/-- The same division before another output. -/
def halfModule : Module :=
  { ratioModule with
    outputs := ratioModule.outputs.take 1 ++ [plainOutput ⟨"half", by decide⟩ "width / 2"]
    distinct := by decide +kernel }

/-- The fault of a division is the same whichever output follows it. -/
theorem outputs_are_causal_of_ratio :
    ∃ results results',
      ratioModule.computeOutputs (.ofLists [] [] []) (wallInputs (.number 0)) = .ok results ∧
      halfModule.computeOutputs (.ofLists [] [] []) (wallInputs (.number 0)) = .ok results' ∧
      (outputFaults results).contains "ratio" = true ∧
      (outputFaults results').get? "ratio" = (outputFaults results).get? "ratio" := by
  obtain ⟨results, run, failed⟩ : ∃ results,
      ratioModule.computeOutputs (.ofLists [] [] []) (wallInputs (.number 0)) = .ok results ∧
        (outputFaults results).contains "ratio" = true :=
    exists_ok_of_check (by decide +kernel)
  obtain ⟨results', run', _⟩ : ∃ results',
      halfModule.computeOutputs (.ofLists [] [] []) (wallInputs (.number 0)) = .ok results' ∧
        (outputValues results').contains "out.half" = true :=
    exists_ok_of_check (by decide +kernel)
  obtain ⟨_, _, _, prefixes⟩ := outputs_are_causal ratioModule _ _ results run
  have same := (prefixes 1).2 halfModule results' rfl rfl run' _ (.head _)
  exact ⟨results, results', run, run', failed, same.fault⟩

end Costing

import Costing.Output.Computation
import Costing.Proofs.Formula.Dependence
import Costing.Proofs.Output.Naming

/-! # What an output sees

`run_of_computeOutputs` describes the results of the outputs of a module one by one: each was
computed in the scope of the fields and of the results before it.  The rest of the file says what
a name stands for in such a scope (`get?_of_sees`, `get?_of_field`, `get?_of_neither`). -/

namespace Costing

open Formula (Scope splitName)

/-- The names that an expression refers to are those in its tree. -/
theorem mem_referencedNames {expression : String} {t : Formula.Tree}
    (parsed : Formula.Tree.parse expression = .ok t) {n : String} :
    n ∈ referencedNames expression ↔ .name n ∈ t.nodes := by
  rw [referencedNames, parsed]
  exact Formula.Tree.mem_names

/-! ## The same inputs -/

theorem Formula.Scope.SameValues.extend {s s' : Scope} (same : s.SameValues s')
    (inputs : Table String FieldInput) : (s.extend inputs).SameValues (s'.extend inputs) where
  book := ⟨same.book.book, same.book.depth⟩
  values name := by rw [get?_extend, get?_extend, same.values]

theorem computeBehind_congr {s s' : Scope} (same : s.SameValues s') (done : List OutputResult)
    (outputs : List Output) : computeBehind s done outputs = computeBehind s' done outputs := by
  induction outputs generalizing done with
  | nil => rfl
  | cons o outputs ih =>
    have first : computeOutput s done o = computeOutput s' done o := by
      rw [computeOutput, computeOutput, (same.extend _).evaluate]
    simp only [computeBehind, first, ih]

/-- The order in which inputs are given does not matter. -/
theorem Module.computeOutputs_congr {m : Module} {book : Pricebook}
    {inputs inputs' : Table String FieldInput}
    (same : ∀ name, inputs.get? name = inputs'.get? name) :
    m.computeOutputs book inputs = m.computeOutputs book inputs' := by
  have inScope : (Scope.ofInputs book m.fields inputs).SameValues
      (Scope.ofInputs book m.fields inputs') := by
    refine ⟨⟨rfl, rfl⟩, fun name => ?_⟩
    rw [Scope.get?_ofInputs, Scope.get?_ofInputs, same]
  exact computeBehind_congr inScope [] m.outputs

/-! ## Results one by one -/

/-- Each output of a module was computed behind the results of those before it. -/
structure Module.Run (m : Module) (book : Pricebook) (inputs : Table String FieldInput)
    (results : List OutputResult) : Prop where
  outputs : results.map (·.output) = m.outputs
  each : ∀ {j r}, results[j]? = some r →
    computeOutput (.ofInputs book m.fields inputs) (results.take j) r.output = .ok r

theorem results_of_computeBehind {base : Scope} {done results : List OutputResult}
    {outputs : List Output} (run : computeBehind base done outputs = .ok results) :
    ∃ more, results = done ++ more ∧ more.map (·.output) = outputs ∧
      ∀ {j r}, results[j]? = some r → done.length ≤ j →
        computeOutput base (results.take j) r.output = .ok r := by
  induction outputs generalizing done with
  | nil =>
    cases run
    refine ⟨[], by simp, rfl, fun {j r} found behind => ?_⟩
    rw [List.getElem?_eq_none behind] at found
    cases found
  | cons o outputs ih =>
    obtain ⟨r, computed, rest⟩ := bind_eq_ok_iff.mp run
    obtain ⟨more, rfl, same, each⟩ := ih rest
    have output : r.output = o := by
      obtain ⟨result, _, made⟩ := bind_eq_ok_iff.mp computed
      cases made
      rfl
    refine ⟨r :: more, by simp, by simp [same, output], fun {j r'} found behind => ?_⟩
    -- the first result was computed behind `done`, the others behind a longer list
    obtain here | further := Nat.eq_or_lt_of_le behind
    · subst here
      have first : r = r' := by simpa using found
      subst first
      rw [output]
      simpa using computed
    · exact each found (by simpa using Nat.succ_le_of_lt further)

theorem run_of_computeOutputs {m : Module} {book : Pricebook} {inputs : Table String FieldInput}
    {results : List OutputResult} (run : m.computeOutputs book inputs = .ok results) :
    m.Run book inputs results := by
  obtain ⟨more, rfl, same, each⟩ := results_of_computeBehind run
  exact ⟨same, fun found => each found (Nat.zero_le _)⟩

theorem computeBehind_of_results {base : Scope} {done more : List OutputResult}
    (each : ∀ {j r}, (done ++ more)[j]? = some r → done.length ≤ j →
      computeOutput base ((done ++ more).take j) r.output = .ok r) :
    computeBehind base done (more.map (·.output)) = .ok (done ++ more) := by
  induction more generalizing done with
  | nil => rw [List.append_nil]; rfl
  | cons r more ih =>
    have first : computeOutput base done r.output = .ok r := by
      simpa using each (j := done.length) (by simp) (Nat.le_refl _)
    have shifted : done ++ r :: more = (done ++ [r]) ++ more := by simp
    have rest : computeBehind base (done ++ [r]) (more.map (·.output)) =
        .ok ((done ++ [r]) ++ more) := by
      refine ih fun {j r'} found behind => ?_
      rw [← shifted] at found ⊢
      exact each found (Nat.le_of_succ_le (by simpa using behind))
    rw [shifted]
    exact bind_eq_ok_iff.mpr ⟨r, first, rest⟩

theorem computeOutputs_of_run {m : Module} {book : Pricebook} {inputs : Table String FieldInput}
    {results : List OutputResult} (run : m.Run book inputs results) :
    m.computeOutputs book inputs = .ok results := by
  rw [Module.computeOutputs, ← run.outputs]
  exact @computeBehind_of_results _ [] results fun found _ => run.each found

/-! ## What is listed -/

namespace OutputResult

def value? (r : OutputResult) : Option Float := r.result.toOption

/-- What is told about the fault of an output. -/
def fault? (r : OutputResult) : Option FaultReport :=
  match r.result with
  | .ok _ => none
  | .error f => some f.report

/-- There is either a value or a fault. -/
theorem isSome_fault? (r : OutputResult) : r.fault?.isSome = !r.value?.isSome := by
  unfold fault? value?
  cases r.result <;> rfl

end OutputResult

theorem outputValues_eq (results : List OutputResult) :
    outputValues results = .ofValues (·.output.key) (·.value?) results := by
  unfold outputValues Table.ofValues OutputResult.value?
  congr
  funext r
  dsimp only
  cases r.result <;> rfl

theorem outputFaults_eq (results : List OutputResult) :
    outputFaults results = .ofValues (·.output.name.text) (·.fault?) results := by
  unfold outputFaults Table.ofValues OutputResult.fault?
  congr
  funext r
  dsimp only
  cases r.result <;> rfl

section
variable {m : Module} {book : Pricebook} {inputs : Table String FieldInput}
  {results : List OutputResult} (run : m.Run book inputs results) {r : OutputResult}
include run

theorem Module.Run.nodup_names : (results.map (·.output.name.text)).Nodup := by
  have distinct := VariableName.nodup_texts m.nodup_outputs
  rw [← run.outputs, List.map_map] at distinct
  exact distinct

theorem Module.Run.nodup_keys : (results.map (·.output.key)).Nodup := by
  refine List.Nodup.of_map dropOutputPrefix ?_
  rw [List.map_map]
  simpa [Function.comp_def, Output.dropOutputPrefix_key] using run.nodup_names

/-- The value of an output is listed under its key. -/
theorem Module.Run.get?_outputValues_of_mem (member : r ∈ results) :
    (outputValues results).get? r.output.key = r.value? := by
  rw [outputValues_eq]
  exact Table.get?_ofValues run.nodup_keys member

/-- The fault of an output is listed under its name. -/
theorem Module.Run.get?_outputFaults_of_mem (member : r ∈ results) :
    (outputFaults results).get? r.output.name.text = r.fault? := by
  rw [outputFaults_eq]
  exact Table.get?_ofValues run.nodup_names member

end

/-! ## Names in the scope of an output -/

/-- The number of the result that a name means by its key or by its name. -/
def Sees (done : List OutputResult) (name : String) (x : Float) : Prop :=
  ∃ r ∈ done, r.result = .ok x ∧ (name = r.output.key ∨ name = r.output.name.text)

theorem sees_of_get?_visibleValues {done : List OutputResult} {name : String} {v : FieldInput}
    (found : (visibleValues done).get? name = some v) :
    ∃ x, v = .given (.number x) ∧ Sees done name x := by
  rw [visibleValues, Table.get?_ofList, Option.map_eq_some_iff] at found
  obtain ⟨e, here, rfl⟩ := found
  have named := List.find?_some here
  have member := List.mem_of_find?_eq_some here
  simp only [List.mem_reverse, List.mem_flatMap] at member
  obtain ⟨r, inDone, entry⟩ := member
  cases result : r.result with
  | error fault => simp [result] at entry
  | ok x =>
    simp only [result, List.mem_cons, List.not_mem_nil, or_false] at entry
    simp only [decide_eq_true_eq] at named
    refine ⟨x, ?_, r, inDone, result, ?_⟩
    · obtain rfl | rfl := entry <;> rfl
    · obtain rfl | rfl := entry
      · exact .inl named.symm
      · exact .inr named.symm

theorem contains_visibleValues {done : List OutputResult} {name : String} {x : Float}
    (sees : Sees done name x) : (visibleValues done).contains name = true := by
  obtain ⟨r, inDone, result, named⟩ := sees
  rw [visibleValues, Table.contains_ofList, List.mem_map]
  refine ⟨(name, .given (.number x)), List.mem_flatMap.mpr ⟨r, inDone, ?_⟩, rfl⟩
  rw [result]
  obtain rfl | rfl := named <;> simp

/-- The value of the output at a position. -/
def valueAt (results : List OutputResult) (position : Nat) : Option Float :=
  results[position]?.bind (·.result.toOption)

/-- Inputs for the fields of a module only. -/
def Module.Declared (m : Module) (inputs : Table String FieldInput) : Prop :=
  ∀ n, inputs.contains n = true → ∃ f ∈ m.fields, f.name.text = n

/-- The scope in which the output at a position is computed. -/
def Module.scopeAt (m : Module) (book : Pricebook) (inputs : Table String FieldInput)
    (results : List OutputResult) (position : Nat) : Scope :=
  (Scope.ofInputs book m.fields inputs).extend (visibleValues (results.take position))

theorem Module.sameBook_scopeAt {m : Module} {book : Pricebook}
    {inputs inputs' : Table String FieldInput} {results results' : List OutputResult}
    {position : Nat} :
    (m.scopeAt book inputs results position).SameBook
      (m.scopeAt book inputs' results' position) := ⟨rfl, rfl⟩

section
variable {m : Module} {book : Pricebook} {inputs : Table String FieldInput}
  {results : List OutputResult} {position : Nat} {name : String}

theorem outputIndex?_of_named {k : Fin m.outputs.length}
    (named : name = (m.outputs.get k).key ∨ name = (m.outputs.get k).name.text) :
    outputIndex? m.outputs name = some k := by
  rw [Module.outputIndex?_eq_some_iff]
  obtain rfl | rfl := named
  · rw [Output.dropOutputPrefix_key, VariableName.lower_text]
  · rw [dropOutputPrefix_of_plain (m.outputs.get k).name.plain, VariableName.lower_text]

variable (run : m.Run book inputs results)
include run

theorem Module.Run.getElem?_outputs (k : Nat) : m.outputs[k]? = results[k]?.map (·.output) := by
  rw [← run.outputs, List.getElem?_map]

theorem Module.Run.exists_result (k : Fin m.outputs.length) :
    ∃ r, results[k.val]? = some r ∧ r.output = m.outputs.get k := by
  have here : m.outputs[k.val]? = some (m.outputs.get k) := List.getElem?_eq_getElem k.isLt
  rw [run.getElem?_outputs, Option.map_eq_some_iff] at here
  exact here

theorem Module.Run.valueAt_of_sees {x : Float} (sees : Sees (results.take position) name x) :
    ∃ k : Fin m.outputs.length, outputIndex? m.outputs name = some k ∧ k.val < position ∧
      valueAt results k.val = some x ∧
      (name = (m.outputs.get k).key ∨ name = (m.outputs.get k).name.text) := by
  obtain ⟨r, among, result, named⟩ := sees
  obtain ⟨k, inRange, found⟩ := List.mem_take_iff_getElem.mp among
  have here : results[k]? = some r :=
    List.getElem?_eq_some_iff.mpr ⟨Nat.lt_of_lt_of_le inRange (Nat.min_le_right ..), found⟩
  have output : m.outputs[k]? = some r.output := by rw [run.getElem?_outputs, here]; rfl
  obtain ⟨inOutputs, same⟩ := List.getElem?_eq_some_iff.mp output
  have named' : name = (m.outputs.get ⟨k, inOutputs⟩).key ∨
      name = (m.outputs.get ⟨k, inOutputs⟩).name.text := by
    rw [List.get_eq_getElem, same]
    exact named
  refine ⟨⟨k, inOutputs⟩, outputIndex?_of_named named',
    Nat.lt_of_lt_of_le inRange (Nat.min_le_left ..), ?_, named'⟩
  simp [valueAt, here, result, Except.toOption]

theorem Module.Run.sees_of_valueAt {x : Float} {k : Fin m.outputs.length}
    (before : k.val < position) (value : valueAt results k.val = some x)
    (named : name = (m.outputs.get k).key ∨ name = (m.outputs.get k).name.text) :
    Sees (results.take position) name x := by
  obtain ⟨r, found, output⟩ := run.exists_result k
  refine ⟨r, List.mem_of_getElem? ((List.getElem?_take_of_lt before).trans found), ?_, ?_⟩
  · rw [valueAt, found] at value
    exact toOption_eq_some_iff.mp value
  · rwa [output]

theorem Module.Run.sees_unique {x y : Float} (first : Sees (results.take position) name x)
    (second : Sees (results.take position) name y) : x = y := by
  obtain ⟨k, index, _, value, _⟩ := run.valueAt_of_sees first
  obtain ⟨k', index', _, value', _⟩ := run.valueAt_of_sees second
  rw [index] at index'
  cases index'
  rw [value] at value'
  exact Option.some.inj value'

theorem Module.Run.get?_of_sees {x : Float} (sees : Sees (results.take position) name x) :
    (m.scopeAt book inputs results position).values.get? name = some (.number x) := by
  obtain ⟨v, found⟩ := Option.isSome_iff_exists.mp (contains_visibleValues sees)
  obtain ⟨y, rfl, sees'⟩ := sees_of_get?_visibleValues found
  rw [scopeAt, Scope.get?_extend, found, run.sees_unique sees sees']
  rfl

theorem Module.Run.resolve_of_sees {x : Float} (sees : Sees (results.take position) name x) :
    (m.scopeAt book inputs results position).resolve name = .ok x := by
  rw [Scope.resolve, run.get?_of_sees sees]
  rfl

theorem Module.Run.get?_of_field {f : Field} (field : f ∈ m.fields) :
    (m.scopeAt book inputs results position).values.get? f.name.text =
      some (f.tag ((inputs.get? f.name.text).getD (.given .blank))) := by
  have hidden : (visibleValues (results.take position)).get? f.name.text = none := by
    cases found : (visibleValues (results.take position)).get? f.name.text with
    | none => rfl
    | some v =>
      obtain ⟨x, _, sees⟩ := sees_of_get?_visibleValues found
      obtain ⟨k, _, _, _, key | text⟩ := run.valueAt_of_sees sees
      · exact absurd key.symm (Output.key_ne_text _ _)
      · exact absurd (congrArg String.toLower text)
          (field_ne_output field (List.getElem_mem k.isLt))
  rw [scopeAt, Scope.get?_extend, hidden, Scope.get?_ofInputs, get?_indexBy_field field]
  rfl

omit run in
theorem Module.get?_ofInputs_of_noField (declared : m.Declared inputs)
    (noField : ∀ f ∈ m.fields, f.name.text ≠ name) :
    (Scope.ofInputs book m.fields inputs).values.get? name = none := by
  have undeclared : (Table.indexBy (·.name.text) m.fields).get? name = none := by
    cases found : (Table.indexBy (fun f : Field => f.name.text) m.fields).get? name with
    | none => rfl
    | some f =>
      obtain ⟨field, text⟩ := Table.mem_of_get?_indexBy found
      exact absurd text (noField f field)
  have ungiven : inputs.get? name = none := by
    cases found : inputs.get? name with
    | none => rfl
    | some v =>
      obtain ⟨f, field, text⟩ := declared name (Table.contains_of_get? found)
      exact absurd text (noField f field)
  rw [Scope.get?_ofInputs, undeclared, ungiven]
  rfl

omit run in
theorem Module.get?_of_neither (declared : m.Declared inputs)
    (noField : ∀ f ∈ m.fields, f.name.text ≠ name)
    (hidden : ∀ x, ¬Sees (results.take position) name x) :
    (m.scopeAt book inputs results position).values.get? name = none := by
  have unseen : (visibleValues (results.take position)).get? name = none := by
    cases found : (visibleValues (results.take position)).get? name with
    | none => rfl
    | some v =>
      obtain ⟨x, _, sees⟩ := sees_of_get?_visibleValues found
      exact absurd sees (hidden x)
  rw [scopeAt, Scope.get?_extend, unseen, Module.get?_ofInputs_of_noField declared noField]
  rfl

/-! ## Values of outputs -/

/-- The value of an output is the rounded number of its expression. -/
theorem Module.Run.valueAt_eq (k : Fin m.outputs.length) :
    valueAt results k.val =
      (Formula.evaluate (m.scopeAt book inputs results k.val)
        (m.outputs.get k).expression).number?.map (Decimal.roundTo Settings.outputDecimals) := by
  obtain ⟨r, found, output⟩ := run.exists_result k
  obtain ⟨result, settled, made⟩ := bind_eq_ok_iff.mp (run.each found)
  have value : r.result = result.map (Decimal.roundTo Settings.outputDecimals) :=
    (congrArg OutputResult.result (Except.ok.inj made)).symm
  rw [output] at settled
  rw [valueAt, found, Option.bind_some, value, scopeAt]
  cases outcome : Formula.evaluate _ _ with
  | value x =>
    rw [outcome] at settled
    cases settled
    rfl
  | fault f =>
    rw [outcome] at settled
    cases settled
    rfl
  | crash =>
    rw [outcome] at settled
    cases settled

/-- All names in the expression of an output with a value have numbers. -/
theorem Module.Run.resolve_of_valueAt {k : Fin m.outputs.length} {x : Float}
    (value : valueAt results k.val = some x) :
    ∀ n ∈ referencedNames (m.outputs.get k).expression,
      ∃ y, (m.scopeAt book inputs results k.val).resolve n = .ok y := by
  rw [run.valueAt_eq, Option.map_eq_some_iff] at value
  obtain ⟨y, number, _⟩ := value
  obtain ⟨t, parsed, resolved⟩ := Formula.resolve_of_number? number
  exact fun n referenced => resolved n ((mem_referencedNames parsed).mp referenced)

/-- The values of the outputs are listed under their keys. -/
theorem Module.Run.get?_outputValues (k : Fin m.outputs.length) :
    (outputValues results).get? (m.outputs.get k).key = valueAt results k.val := by
  obtain ⟨r, here, output⟩ := run.exists_result k
  rw [← output, run.get?_outputValues_of_mem (List.mem_of_getElem? here), valueAt, here]
  rfl

/-- An output has a fault exactly if it has no value. -/
theorem Module.Run.contains_outputFaults_iff (k : Fin m.outputs.length) :
    (outputFaults results).contains (m.outputs.get k).name.text = true ↔
      valueAt results k.val = none := by
  obtain ⟨r, here, output⟩ := run.exists_result k
  rw [← output, Table.contains, run.get?_outputFaults_of_mem (List.mem_of_getElem? here),
    r.isSome_fault?, valueAt, here]
  simp [OutputResult.value?]

end

end Costing

import Costing.Proofs.Output.Meaning
import Mathlib.Logic.Relation

/-! # Outputs depend on their dependencies and on nothing else

`mem_reached_iff` describes the outputs that are reached from an output: exactly those to which
references lead.  On them rest the two facts about `Module.dependencies`.

* Inputs that agree on the dependencies of an output give the output the same value, whatever
  becomes of the outputs that it does not reach (`valueAt_congr`).  No name in an expression that
  is reached may be doubled, since only one of its readings is followed.
* An output has a value only if all its dependencies are given (`given_of_valueAt`).  This needs
  names that mean one thing only (`Module.Unambiguous`): an output that is missing must not be
  mistaken for a catalog item or a constant. -/

namespace Costing

open Relation (ReflTransGen)
open Formula (Scope splitName)

/-! ## Which outputs are reached -/

namespace Module

/-- The expression of an output refers to another one. -/
def Refers (m : Module) (limit : Nat) (j k : Fin m.outputs.length) : Prop :=
  k ∈ m.earlierOutputs limit (m.outputs.get j).expression

section
variable {m : Module} {limit : Nat} {pending visited : List (Fin m.outputs.length)}

theorem subset_reached :
    visited ⊆ m.reached limit pending visited ∧ pending ⊆ m.reached limit pending visited := by
  fun_induction Module.reached m limit pending visited with
  | case1 visited => exact ⟨List.Subset.refl _, List.nil_subset _⟩
  | case2 visited i pending known ih =>
    refine ⟨ih.1, fun j member => ?_⟩
    obtain rfl | later := List.mem_cons.mp member
    · exact ih.1 known
    · exact ih.2 later
  | case3 visited i pending fresh ih =>
    refine ⟨fun j member => ih.1 (List.mem_append_left _ member), fun j member => ?_⟩
    obtain rfl | later := List.mem_cons.mp member
    · exact ih.1 (List.mem_append_right _ (.head _))
    · exact ih.2 (List.mem_append_right _ later)

/-- What a visited output refers to is visited or pending; in the end nothing is pending. -/
theorem closed_reached
    (covered : ∀ j ∈ visited, ∀ k, m.Refers limit j k → k ∈ visited ∨ k ∈ pending) :
    ∀ j ∈ m.reached limit pending visited, ∀ k, m.Refers limit j k →
      k ∈ m.reached limit pending visited := by
  fun_induction Module.reached m limit pending visited with
  | case1 visited => exact fun j member k refers => (covered j member k refers).resolve_right nofun
  | case2 visited i pending known ih =>
    refine ih fun j member k refers => ?_
    obtain old | waiting := covered j member k refers
    · exact .inl old
    · obtain rfl | later := List.mem_cons.mp waiting
      · exact .inl known
      · exact .inr later
  | case3 visited i pending fresh ih =>
    refine ih fun j member k refers => ?_
    obtain old | new := List.mem_append.mp member
    · obtain old | waiting := covered j old k refers
      · exact .inl (List.mem_append_left _ old)
      · obtain rfl | later := List.mem_cons.mp waiting
        · exact .inl (List.mem_append_right _ (.head _))
        · exact .inr (List.mem_append_right _ later)
    · -- what the new output refers to is pending from now on
      obtain rfl := List.mem_singleton.mp new
      exact .inr (List.mem_append_left _ (List.mem_reverse.mpr refers))

theorem reached_from {start : Fin m.outputs.length}
    (waiting : ∀ j ∈ pending, ReflTransGen (m.Refers limit) start j)
    (seen : ∀ j ∈ visited, ReflTransGen (m.Refers limit) start j) :
    ∀ j ∈ m.reached limit pending visited, ReflTransGen (m.Refers limit) start j := by
  fun_induction Module.reached m limit pending visited with
  | case1 visited => exact seen
  | case2 visited i pending known ih => exact ih (fun j later => waiting j (.tail _ later)) seen
  | case3 visited i pending fresh ih =>
    have here := waiting i (.head _)
    refine ih (fun j member => ?_) fun j member => ?_
    · obtain next | later := List.mem_append.mp member
      · exact here.tail (List.mem_reverse.mp next)
      · exact waiting j (.tail _ later)
    · obtain old | new := List.mem_append.mp member
      · exact seen j old
      · exact List.mem_singleton.mp new ▸ here

theorem mem_reached_iff {i j : Fin m.outputs.length} :
    j ∈ m.reached limit [i] [] ↔ ReflTransGen (m.Refers limit) i j := by
  constructor
  · apply reached_from
    · intro k member
      rw [List.mem_singleton.mp member]
    · nofun
  · intro chain
    induction chain with
    | refl => exact subset_reached.2 (.head _)
    | tail _ refers ih =>
      exact closed_reached (fun _ member => absurd member List.not_mem_nil) _ ih _ refers

theorem refers_iff {j k : Fin m.outputs.length} :
    m.Refers limit j k ↔ k.val < limit ∧ ∃ n ∈ referencedNames (m.outputs.get j).expression,
      m.field? (splitName n).1 = none ∧ outputIndex? m.outputs n = some k := by
  rw [Refers, earlierOutputs, List.mem_filterMap]
  constructor
  · rintro ⟨n, member, found⟩
    obtain ⟨index, before⟩ := Option.filter_eq_some_iff.mp found
    obtain ⟨named, noField⟩ := List.mem_filter.mp member
    exact ⟨of_decide_eq_true before, n, named, Option.isNone_iff_eq_none.mp noField, index⟩
  · rintro ⟨before, n, named, noField, index⟩
    exact ⟨n, List.mem_filter.mpr ⟨named, Option.isNone_iff_eq_none.mpr noField⟩,
      Option.filter_eq_some_iff.mpr ⟨index, decide_eq_true before⟩⟩

/-- A field is a dependency of an output if an output that is reached from it refers to the
field. -/
theorem mem_dependencies_iff {i : Fin m.outputs.length} {d : String} :
    d ∈ m.dependencies (m.outputs.get i).name.text ↔ ∃ j, ReflTransGen (m.Refers i.val) i j ∧
      ∃ n ∈ referencedNames (m.outputs.get j).expression,
        (splitName n).1 = d ∧ (m.field? d).isSome = true := by
  have index := outputIndex?_of_named (k := i) (.inr rfl)
  rw [dependencies, index]
  simp only [List.mem_eraseDups, List.mem_flatMap, mem_reached_iff, referencedFields,
    List.mem_filter, List.mem_map]
  constructor
  · rintro ⟨j, reached, ⟨n, named, base⟩, field⟩
    exact ⟨j, reached, n, named, base, field⟩
  · rintro ⟨j, reached, n, named, base, field⟩
    exact ⟨j, reached, ⟨n, named, base⟩, field⟩

/-- An output that refers to no earlier one depends on the fields in its expression. -/
theorem dependencies_of_leaf {i : Fin m.outputs.length}
    (leaf : m.earlierOutputs i.val (m.outputs.get i).expression = []) :
    m.dependencies (m.outputs.get i).name.text =
      (m.referencedFields (m.outputs.get i).expression).eraseDups := by
  have nothing : m.earlierOutputs i.val m.outputs[i].expression = [] := leaf
  have alone : m.reached i.val [i] [] = [i] := by
    rw [reached, dif_neg List.not_mem_nil, nothing, List.reverse_nil, List.nil_append,
      List.nil_append]
    exact reached.eq_def ..
  rw [dependencies, outputIndex?_of_named (k := i) (.inr rfl)]
  dsimp only
  rw [alone, List.flatMap_singleton]
  rfl

theorem exists_field_of_dependency {o : Output} (declared : o ∈ m.outputs) {d : String}
    (member : d ∈ m.dependencies o.name.text) : ∃ f ∈ m.fields, f.name.text = d := by
  obtain ⟨i, rfl⟩ := List.mem_iff_get.mp declared
  obtain ⟨_, _, _, _, _, present⟩ := mem_dependencies_iff.mp member
  obtain ⟨f, found⟩ := Option.isSome_iff_exists.mp present
  exact ⟨f, mem_of_field? found⟩

end

end Module

/-! ## Inputs that agree -/

section
variable {m : Module} {book : Pricebook} {inputs inputs' : Table String FieldInput}
  {results results' : List OutputResult} {position : Nat} {name : String}

variable (run : m.Run book inputs results) (run' : m.Run book inputs' results')
include run run'

/-- An output that is seen in one run is seen in another one where it has the same value. -/
theorem sees_of_sees {x : Float}
    (same : ∀ k, outputIndex? m.outputs name = some k → k.val < position →
      valueAt results k.val = valueAt results' k.val)
    (sees : Sees (results.take position) name x) : Sees (results'.take position) name x := by
  obtain ⟨k, index, before, value, named⟩ := run.valueAt_of_sees sees
  exact run'.sees_of_valueAt before ((same k index before).symm.trans value) named

variable (declared : m.Declared inputs) (declared' : m.Declared inputs')
include declared declared'

theorem sameNumber_of_field (clear : ¬m.Doubled book name) {f : Field} (field : f ∈ m.fields)
    (base : (splitName name).1 = f.name.text)
    (agree : inputs.get? f.name.text = inputs'.get? f.name.text) :
    (m.scopeAt book inputs results position).SameNumber
      (m.scopeAt book inputs' results' position) name := by
  have value : (m.scopeAt book inputs results position).values.get? f.name.text =
      (m.scopeAt book inputs' results' position).values.get? f.name.text := by
    rw [run.get?_of_field field, run'.get?_of_field field, agree]
  refine congrArg Except.toOption
    (Scope.resolve_congr Module.sameBook_scopeAt ?_ (by rw [base, value]))
  cases split : splitName name with
  | mk b property =>
    rw [split] at base
    dsimp only at base
    subst base
    cases property with
    | none =>
      obtain ⟨rfl, _⟩ := Formula.eq_of_splitName_none split
      exact value
    | some property =>
      rw [get?_of_field_property run declared clear field split,
        get?_of_field_property run' declared' clear field split]

theorem sameNumber_of_unseen (clear : ¬m.Doubled book name)
    (noField : m.field? (splitName name).1 = none)
    (unseen : ∀ x, ¬Sees (results.take position) name x)
    (unseen' : ∀ x, ¬Sees (results'.take position) name x) :
    (m.scopeAt book inputs results position).SameNumber
      (m.scopeAt book inputs' results' position) name := by
  have noBase := Module.noField_of_field? noField
  have noName := Module.noField_of_base noBase
  have whole : (m.scopeAt book inputs results position).values.get? name = none :=
    Module.get?_of_neither declared noName unseen
  have whole' : (m.scopeAt book inputs' results' position).values.get? name = none :=
    Module.get?_of_neither declared' noName unseen'
  cases split : splitName name with
  | mk base property =>
    rw [split] at noBase
    cases property with
    | none =>
      obtain ⟨rfl, _⟩ := Formula.eq_of_splitName_none split
      refine congrArg Except.toOption (Scope.resolve_congr Module.sameBook_scopeAt ?_ ?_)
      · rw [whole, whole']
      · rw [split, whole, whole']
    | some property =>
      by_cases output : ∃ o ∈ m.outputs, o.name.text = base
      · -- a property of an output has no number in either run
        obtain ⟨o, inOutputs, rfl⟩ := output
        have noItem : book.catalog.find? o.name.text = none := by
          rw [← Option.not_isSome_iff_eq_none]
          exact fun item => clear (.property inOutputs split item)
        rw [Scope.SameNumber, Scope.resolve_dotted split whole, Scope.resolve_dotted split whole',
          toOption_resolveProperty_of_output run declared inOutputs noItem,
          toOption_resolveProperty_of_output run' declared' inOutputs noItem]
      · have noOutput : ∀ o ∈ m.outputs, o.name.text ≠ base :=
          fun o inOutputs same => output ⟨o, inOutputs, same⟩
        have plain := (Formula.eq_of_splitName split).2
        refine congrArg Except.toOption (Scope.resolve_congr Module.sameBook_scopeAt ?_ ?_)
        · rw [whole, whole']
        · rw [split, get?_of_base run declared noBase noOutput plain,
            get?_of_base run' declared' noBase noOutput plain]

/-- No name in the expressions that are reached from an output is doubled. -/
def Module.Clear (m : Module) (book : Pricebook) (i : Fin m.outputs.length) : Prop :=
  ∀ j, ReflTransGen (m.Refers i.val) i j →
    ∀ n ∈ referencedNames (m.outputs.get j).expression, ¬m.Doubled book n

/-- Outputs that are reached from an output have the same values if the inputs agree on its
dependencies. -/
theorem valueAt_congr_of_reached {i : Fin m.outputs.length} (clear : m.Clear book i)
    (agree : ∀ d ∈ m.dependencies (m.outputs.get i).name.text, inputs.get? d = inputs'.get? d)
    (j : Fin m.outputs.length) (reached : ReflTransGen (m.Refers i.val) i j) :
    valueAt results j.val = valueAt results' j.val := by
  -- an output sees only those before it, whichever it refers to
  induction here : j.val using Nat.strongRecOn generalizing j with
  | ind position ih =>
    subst here
    have notBehind : j.val ≤ i.val := by
      obtain rfl | ⟨_, _, refers⟩ := ReflTransGen.cases_tail reached
      · exact Nat.le_refl _
      · exact Nat.le_of_lt (Module.refers_iff.mp refers).1
    rw [run.valueAt_eq, run'.valueAt_eq]
    refine congrArg _
      (Formula.number?_evaluate_congr Module.sameBook_scopeAt fun t parsed n member => ?_)
    have referenced : n ∈ referencedNames (m.outputs.get j).expression :=
      (mem_referencedNames parsed).mpr member
    cases field : m.field? (splitName n).1 with
    | some f =>
      obtain ⟨inFields, text⟩ := Module.mem_of_field? field
      have dependency : f.name.text ∈ m.dependencies (m.outputs.get i).name.text :=
        Module.mem_dependencies_iff.mpr
          ⟨j, reached, n, referenced, text.symm, by rw [text, field]; rfl⟩
      exact sameNumber_of_field run run' declared declared' (clear j reached n referenced) inFields
        text.symm (agree _ dependency)
    | none =>
      have earlier : ∀ k, outputIndex? m.outputs n = some k → k.val < j.val →
          valueAt results k.val = valueAt results' k.val := by
        intro k index before
        have refers : m.Refers i.val j k :=
          Module.refers_iff.mpr ⟨Nat.lt_of_lt_of_le before notBehind, n, referenced, field, index⟩
        exact ih k.val before k (reached.tail refers) rfl
      -- a name of no field means an earlier output, or the same in both runs
      by_cases seen : ∃ x, Sees (results.take j.val) n x
      · obtain ⟨x, sees⟩ := seen
        rw [Scope.SameNumber, run.resolve_of_sees sees,
          run'.resolve_of_sees (sees_of_sees run run' earlier sees)]
      · have unseen : ∀ x, ¬Sees (results.take j.val) n x := fun x sees => seen ⟨x, sees⟩
        have unseen' : ∀ x, ¬Sees (results'.take j.val) n x := fun x sees => unseen x
          (sees_of_sees run' run (fun k index before => (earlier k index before).symm) sees)
        exact sameNumber_of_unseen run run' declared declared' (clear j reached n referenced) field
          unseen unseen'

/-- Inputs that agree on the dependencies of an output give it the same value. -/
theorem valueAt_congr {i : Fin m.outputs.length} (clear : m.Clear book i)
    (agree : ∀ d ∈ m.dependencies (m.outputs.get i).name.text, inputs.get? d = inputs'.get? d) :
    valueAt results i.val = valueAt results' i.val :=
  valueAt_congr_of_reached run run' declared declared' clear agree i .refl

end

/-! ## Inputs that are needed -/

section
variable {m : Module} {book : Pricebook} {inputs : Table String FieldInput}
  {results : List OutputResult}

variable (names : m.Unambiguous book) (run : m.Run book inputs results)
  (declared : m.Declared inputs)
include names run declared

/-- All outputs that are reached from an output with a value have values. -/
theorem valueAt_of_reached {i : Fin m.outputs.length} {x : Float}
    (value : valueAt results i.val = some x) {limit : Nat} {j : Fin m.outputs.length}
    (reached : ReflTransGen (m.Refers limit) i j) : ∃ y, valueAt results j.val = some y := by
  induction reached with
  | refl => exact ⟨x, value⟩
  | @tail j k _ refers ih =>
    obtain ⟨y, value⟩ := ih
    obtain ⟨_, n, referenced, noField, index⟩ := Module.refers_iff.mp refers
    obtain ⟨z, resolved⟩ := run.resolve_of_valueAt value n referenced
    exact valueAt_of_resolve run declared names index (Module.noField_of_field? noField) resolved

/-- An output with a value has no dependency that is broken. -/
theorem given_of_valueAt {i : Fin m.outputs.length} {x : Float}
    (value : valueAt results i.val = some x) {d : String}
    (member : d ∈ m.dependencies (m.outputs.get i).name.text) (reason : BrokenReason)
    (own : FieldValue) : inputs.get? d ≠ some (.broken reason own) := by
  obtain ⟨j, reached, n, referenced, base, present⟩ := Module.mem_dependencies_iff.mp member
  obtain ⟨f, field⟩ := Option.isSome_iff_exists.mp present
  obtain ⟨inFields, rfl⟩ := Module.mem_of_field? field
  obtain ⟨y, value⟩ := valueAt_of_reached names run declared value reached
  obtain ⟨z, resolved⟩ := run.resolve_of_valueAt value n referenced
  exact given_of_resolve run declared (names.not_doubled n) inFields base resolved reason own

end

/-! ## The outcome of an output -/

/-- In a module without doubled names, the dependencies of an output decide what comes of it:
inputs that agree on them give it the same value, or a fault both times. -/
theorem dependencies_cover (m : Module) (book : Pricebook) (o : Output) (output : o ∈ m.outputs)
    (clear : ∀ p ∈ m.outputs, ∀ n ∈ referencedNames p.expression, ¬m.Doubled book n)
    (inputs inputs' : Table String FieldInput) (declared : m.Declared inputs)
    (declared' : m.Declared inputs')
    (agree : ∀ d ∈ m.dependencies o.name.text, inputs.get? d = inputs'.get? d)
    (results results' : List OutputResult) (run : m.computeOutputs book inputs = .ok results)
    (run' : m.computeOutputs book inputs' = .ok results') :
    (∃ x, (outputValues results).get? o.key = some x ∧
        (outputValues results').get? o.key = some x) ∨
      (outputFaults results).contains o.name.text = true ∧
        (outputFaults results').contains o.name.text = true := by
  obtain ⟨i, rfl⟩ := List.mem_iff_get.mp output
  have computed := run_of_computeOutputs run
  have computed' := run_of_computeOutputs run'
  have same : valueAt results i.val = valueAt results' i.val :=
    valueAt_congr computed computed' declared declared'
      (fun j _ n referenced => clear _ (List.get_mem _ j) n referenced) agree
  rw [computed.get?_outputValues, computed'.get?_outputValues,
    computed.contains_outputFaults_iff, computed'.contains_outputFaults_iff, ← same]
  cases valueAt results i.val with
  | none => exact .inr ⟨rfl, rfl⟩
  | some x => exact .inl ⟨x, rfl, rfl⟩

/-! The surface of a wall and its price, in a module with a further field. -/

def numberField (name : VariableName) : Field :=
  ⟨name.text, name.text, name, .number, false, .blank, [], .numeric, none, none, none, none⟩

def plainOutput (name : VariableName) (expression : String) : Output :=
  ⟨name.text, name.text, name, expression, none, none, true⟩

def wallModule : Module where
  id := "m"
  name := "Wall"
  description := none
  category := none
  fields := [numberField ⟨"width", by decide⟩, numberField ⟨"depth", by decide⟩]
  outputs := [plainOutput ⟨"surface", by decide⟩ "width * width",
    plainOutput ⟨"price", by decide⟩ "out.surface"]
  formula := "out.price"
  distinct := by decide +kernel

/-- The same outputs, in a module with a field `out`. -/
def outModule : Module :=
  { wallModule with
    fields := [numberField ⟨"width", by decide⟩, numberField ⟨"out", by decide⟩]
    distinct := by decide +kernel }

def wallInputs (x : FieldValue) : Table String FieldInput := .ofList [("width", .given x)]

theorem declared_wallInputs {m : Module} {f : Field} (field : f ∈ m.fields)
    (named : f.name.text = "width") (x : FieldValue) : m.Declared (wallInputs x) := by
  intro n present
  obtain rfl := List.mem_singleton.mp (Table.contains_ofList.mp present)
  exact ⟨f, field, named⟩

theorem get?_wallInputs {n : String} (other : n ≠ "width") (x : FieldValue) :
    (wallInputs x).get? n = none := by
  simp [wallInputs, Table.get?_ofList, Ne.symm other]

theorem clear_wallModule : ∀ p ∈ wallModule.outputs, ∀ n ∈ referencedNames p.expression,
    ¬wallModule.Doubled (.ofLists [] [] []) n := by
  have names : wallModule.Unambiguous (.ofLists [] [] []) :=
    Module.unambiguous_of_noItems (by decide +kernel) (by decide +kernel)
  exact fun _ _ n _ => names.not_doubled n

theorem dependency_wallModule {d : String} (member : d ∈ wallModule.dependencies "price") :
    d = "width" := by
  obtain ⟨j, _, n, referenced, rfl, field⟩ :=
    (Module.mem_dependencies_iff (m := wallModule) (i := ⟨1, by decide⟩)).mp member
  -- whichever outputs are reached, `width` is the only field in their expressions
  have onlyWidth : ∀ j : Fin wallModule.outputs.length,
      ∀ n ∈ referencedNames (wallModule.outputs.get j).expression,
        (wallModule.field? (splitName n).1).isSome = true → (splitName n).1 = "width" := by
    decide +kernel
  exact onlyWidth j n referenced field

/-- What comes of the price is decided by `width`. -/
theorem dependencies_cover_wall :
    ∃ results results',
      wallModule.computeOutputs (.ofLists [] [] []) (wallInputs (.number 2)) = .ok results ∧
      wallModule.computeOutputs (.ofLists [] [] [])
        ((wallInputs (.number 2)).insert "depth" (.given (.number 3))) = .ok results' ∧
      ((∃ x, (outputValues results).get? "out.price" = some x ∧
          (outputValues results').get? "out.price" = some x) ∨
        (outputFaults results).contains "price" = true ∧
          (outputFaults results').contains "price" = true) := by
  have computed (inputs : Table String FieldInput)
      (isSome : (wallModule.computeOutputs (.ofLists [] [] []) inputs).toOption.isSome = true) :
      ∃ results, wallModule.computeOutputs (.ofLists [] [] []) inputs = .ok results := by
    obtain ⟨results, found⟩ := Option.isSome_iff_exists.mp isSome
    exact ⟨results, toOption_eq_some_iff.mp found⟩
  obtain ⟨results, run⟩ := computed (wallInputs (.number 2)) (by decide +kernel)
  obtain ⟨results', run'⟩ :=
    computed ((wallInputs (.number 2)).insert "depth" (.given (.number 3))) (by decide +kernel)
  have declared : wallModule.Declared (wallInputs (.number 2)) :=
    declared_wallInputs (.head _) rfl _
  have declared' :
      wallModule.Declared ((wallInputs (.number 2)).insert "depth" (.given (.number 3))) := by
    intro n present
    rw [Table.contains_insert, Bool.or_eq_true, decide_eq_true_eq] at present
    obtain rfl | other := present
    · exact ⟨_, .tail _ (.head _), rfl⟩
    · exact declared n other
  refine ⟨results, results', run, run', dependencies_cover wallModule _ _
    (List.get_mem wallModule.outputs ⟨1, by decide⟩) clear_wallModule _ _ declared declared'
    (fun d member => ?_) _ _ run run'⟩
  rw [dependency_wallModule member, Table.get?_insert, if_neg (by decide)]

/-- A field `out` hides what an output reads through the key of another one. -/
theorem field_out_hides_dependency :
    outModule.Declared (wallInputs (.number 1)) ∧ outModule.Declared (wallInputs .blank) ∧
    (∀ d ∈ outModule.dependencies "price",
      (wallInputs (.number 1)).get? d = (wallInputs .blank).get? d) ∧
    ∃ results results',
      outModule.computeOutputs (.ofLists [] [] []) (wallInputs (.number 1)) = .ok results ∧
      outModule.computeOutputs (.ofLists [] [] []) (wallInputs .blank) = .ok results' ∧
      (outputValues results).contains "out.price" = true ∧
      (outputFaults results').contains "price" = true := by
  -- the surface is not followed, for the base of its key is a field
  have leaf : outModule.earlierOutputs 1 "out.surface" = [] := by decide +kernel
  have fields : outModule.dependencies "price" =
      (outModule.referencedFields "out.surface").eraseDups :=
    Module.dependencies_of_leaf (m := outModule) (i := ⟨1, by decide⟩) leaf
  have unread {d : String} (member : d ∈ outModule.dependencies "price") : d ≠ "width" := by
    have others : ∀ d ∈ (outModule.referencedFields "out.surface").eraseDups, d ≠ "width" := by
      decide +kernel
    exact others d (fields ▸ member)
  obtain ⟨results, run, value⟩ : ∃ results,
      outModule.computeOutputs (.ofLists [] [] []) (wallInputs (.number 1)) = .ok results ∧
        (outputValues results).contains "out.price" = true :=
    exists_ok_of_check (by decide +kernel)
  obtain ⟨results', run', fault⟩ : ∃ results,
      outModule.computeOutputs (.ofLists [] [] []) (wallInputs .blank) = .ok results ∧
        (outputFaults results).contains "price" = true :=
    exists_ok_of_check (by decide +kernel)
  refine ⟨declared_wallInputs (.head _) rfl _, declared_wallInputs (.head _) rfl _,
    fun d member => ?_, results, results', run, run', value, fault⟩
  rw [get?_wallInputs (unread member), get?_wallInputs (unread member)]

end Costing

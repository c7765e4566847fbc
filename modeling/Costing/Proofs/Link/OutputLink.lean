import Costing.Proofs.Link.Coherence
import Costing.Proofs.Output.Dependency
import Costing.Proofs.Recalculation

/-! # Links to outputs

An output is computed in two places.  Where a link to it is followed, its module gets the values
of its dependencies over the stored ones; where its instance is costed, its module gets the
values of all fields.  `carries_output` compares the two: on a cycle, a dependency of the output
is broken, and the output has no value; off a cycle, the inputs agree on its dependencies.
`carries_link` takes this over the link, and `link_reads_output` is the result for a recalculated
workspace. -/

namespace Costing

/-- Identifiers are distinct, instances store values and links for declared fields only, and
names mean one thing only. -/
structure Workspace.Orderly (w : Workspace) (book : Pricebook) : Prop where
  instances : (w.instances.map (·.id)).Nodup
  modules : (w.modules.map (·.id)).Nodup
  declared : ∀ i ∈ w.instances, ∀ m ∈ w.modules, m.id = i.moduleId → ∀ name,
    i.values.contains name = true ∨ i.links.contains name = true →
      ∃ f ∈ m.fields, f.name.text = name
  names : ∀ m ∈ w.modules, m.Unambiguous book

/-- An input carries what became of an output: its number, or no value. -/
def FieldInput.Carries (input : FieldInput) : Option Float → Prop
  | some x => input = .given (.number x)
  | none => input.isBroken = true

theorem FieldInput.Carries.isBroken_eq_false_iff {input : FieldInput} {value : Option Float}
    (carries : input.Carries value) : input.isBroken = false ↔ value.isSome = true := by
  cases value with
  | none =>
    have broken : input.isBroken = true := carries
    simp [broken]
  | some x =>
    obtain rfl : input = .given (.number x) := carries
    simp [FieldInput.isBroken]

theorem FieldInput.Carries.linkedInput {input : FieldInput} {value : Option Float}
    (carries : input.Carries value) (link : Place) (own : FieldValue) :
    (linkedInput link own input).Carries value := by
  cases input with
  | given x => exact carries
  | broken reason fallback =>
    cases value with
    | none => rfl
    | some x => cases carries

theorem carries_outputInput (value : Option Float) : (outputInput value).Carries value := by
  cases value <;> rfl

/-! ## Where links and outputs get their values from -/

namespace Workspace

section
variable {w : Workspace} {book : Pricebook} (orderly : w.Orderly book) {i : Instance}
  (placed : i ∈ w.instances)
include orderly placed

theorem Orderly.get?_instanceTable : w.instanceTable.get? i.id = some i :=
  Table.get?_indexBy_of_mem orderly.instances placed

variable {m : Module} (used : m ∈ w.modules) (moduleId : m.id = i.moduleId)
include used moduleId

omit placed in
theorem Orderly.get?_moduleTable : w.moduleTable.get? i.moduleId = some m := by
  rw [← moduleId]
  exact Table.get?_indexBy_of_mem orderly.modules used

theorem Orderly.source_output {o : Output} (output : o ∈ m.outputs) :
    w.source ⟨i.id, o.key⟩ = .computed i m o :=
  source_of_output orderly.instances placed (orderly.get?_moduleTable used moduleId) output

theorem Orderly.source_link {o : Output} (output : o ∈ m.outputs) {a : Instance}
    (drawing : a ∈ w.instances) (name : VariableName)
    (link : a.links.get? name.text = some ⟨i.id, o.key⟩) :
    ∃ own, w.source ⟨a.id, name.text⟩ = .linked ⟨i.id, o.key⟩ own := by
  refine ⟨(a.values.get? name.text).getD .blank, ?_⟩
  have target : m.target? o.key = some (.output o) := by
    rw [Module.target?, if_pos o.hasOutputPrefix_key,
      Module.output?_eq_some output o.dropOutputPrefix_key]
    rfl
  simp only [source, orderly.get?_instanceTable drawing, hasOutputPrefix_of_plain name.plain,
    fieldSource, link, linkSource, orderly.get?_instanceTable placed,
    orderly.get?_moduleTable used moduleId, Option.bind_some, target, Bool.false_eq_true, if_false]

theorem Orderly.declared_storedInputs : m.Declared i.storedInputs := by
  intro name present
  rw [Instance.storedInputs, Table.contains_mapValues] at present
  exact orderly.declared i placed m used moduleId name (.inl present)

/-- An instance shows values for the fields of its module and for nothing else. -/
theorem Orderly.reports_iff {name : String} :
    w.Reports ⟨i.id, name⟩ ↔ ∃ f ∈ m.fields, f.name.text = name := by
  constructor
  · rintro ⟨j, placed', id, named⟩
    obtain rfl := Table.eq_of_key orderly.instances placed' placed id
    obtain ⟨stored | linked | ⟨m', found, field⟩, _⟩ := mem_fieldNames.mp named
    · exact orderly.declared j placed m used moduleId name (.inl (Table.contains_iff.mpr stored))
    · exact orderly.declared j placed m used moduleId name (.inr (Table.contains_iff.mpr linked))
    · rw [orderly.get?_moduleTable used moduleId] at found
      cases found
      exact field
  · rintro ⟨f, field, rfl⟩
    refine ⟨i, placed, rfl, mem_fieldNames.mpr ⟨.inr (.inr ⟨m, ?_, f, field, rfl⟩), ?_⟩⟩
    · exact orderly.get?_moduleTable used moduleId
    · exact hasOutputPrefix_of_plain f.name.plain

end

end Workspace

/-! ## Values behind links -/

section
variable {w : Workspace} {book : Pricebook} {s : Resolution} (orderly : w.Orderly book)
  (coherent : Coherent w book [] s) {i : Instance} (placed : i ∈ w.instances) {m : Module}
  (used : m ∈ w.modules) (moduleId : m.id = i.moduleId) {finals : Table String FieldInput}
  {results : List OutputResult} (run : m.Run book finals results) (declared : m.Declared finals)
  (final : ∀ f ∈ m.fields, finals.get? f.name.text = s.settled.get? ⟨i.id, f.name.text⟩)

include orderly used run declared final

/-- An output on a cycle has no value, because a dependency on the cycle is broken. -/
theorem valueAt_of_marked (coherent : Coherent w book [] s) {k : Fin m.outputs.length}
    (found : w.source ⟨i.id, (m.outputs.get k).key⟩ = .computed i m (m.outputs.get k))
    (marked : ⟨i.id, (m.outputs.get k).key⟩ ∈ s.onCycle) : valueAt results k.val = none := by
  -- the output waits for a dependency on the cycle, and that one is broken
  obtain ⟨next, nextMarked, waits, _⟩ := coherent.onward _ marked
  obtain ⟨reason, own, broken⟩ := coherent.broken_of_marked nextMarked
  cases value : valueAt results k.val with
  | none => rfl
  | some x =>
    cases waits with
    | link other => rw [found] at other; cases other
    | @dependency _ _ _ field other member =>
      rw [found] at other
      cases other
      have given := given_of_valueAt (orderly.names m used) run declared value member reason own
      obtain ⟨f, inFields, rfl⟩ := Module.exists_field_of_dependency (List.get_mem _ k) member
      rw [final f inFields] at given
      exact absurd broken given

include coherent placed moduleId

/-- The value that an output has once it is resolved is the one in the costs of its instance. -/
theorem carries_output {k : Fin m.outputs.length} {value : FieldInput}
    (settled : s.settled.get? ⟨i.id, (m.outputs.get k).key⟩ = some value) :
    value.Carries (valueAt results k.val) := by
  have found : w.source ⟨i.id, (m.outputs.get k).key⟩ = .computed i m (m.outputs.get k) :=
    orderly.source_output placed used moduleId (List.getElem_mem k.isLt)
  by_cases marked : ⟨i.id, (m.outputs.get k).key⟩ ∈ s.onCycle
  · obtain ⟨reason, own, broken⟩ := coherent.broken_of_marked marked
    rw [valueAt_of_marked orderly used run declared final coherent found marked]
    rw [settled] at broken
    cases broken
    rfl
  · obtain ⟨inputs, results', drawn, kept, computed, rfl⟩ :=
      (coherent.backed settled).of_computed found marked
    have run' := run_of_computeOutputs computed
    -- where the link is followed, the module gets its dependencies over the stored values
    have declared' : m.Declared inputs := by
      intro name present
      by_cases dependency : name ∈ m.dependencies (m.outputs.get k).name.text
      · exact Module.exists_field_of_dependency (List.get_mem _ k) dependency
      · rw [Table.contains, kept name dependency] at present
        exact orderly.declared_storedInputs placed used moduleId name present
    have agree : ∀ d ∈ m.dependencies (m.outputs.get k).name.text,
        inputs.get? d = finals.get? d := by
      intro d member
      obtain ⟨input, earlier, drawn⟩ := drawn d member
      obtain ⟨f, inFields, rfl⟩ := Module.exists_field_of_dependency (List.get_mem _ k) member
      rw [drawn, final f inFields, earlier.settled]
    rw [run'.get?_outputValues k,
      valueAt_congr run' run declared' declared
        (fun _ _ n _ => (orderly.names m used).not_doubled n) agree]
    exact carries_outputInput _

/-- The value of a field that is linked to an output is the one in the costs of its instance. -/
theorem carries_link {k : Fin m.outputs.length} {p : Place} {own : FieldValue}
    {value : FieldInput} (found : w.source p = .linked ⟨i.id, (m.outputs.get k).key⟩ own)
    (settled : s.settled.get? p = some value) : value.Carries (valueAt results k.val) := by
  have output : w.source ⟨i.id, (m.outputs.get k).key⟩ = .computed i m (m.outputs.get k) :=
    orderly.source_output placed used moduleId (List.getElem_mem k.isLt)
  obtain ⟨marked, rfl⟩ | ⟨_, target, earlier, rfl⟩ := (coherent.backed settled).of_linked found
  · -- the output stands behind the field on the cycle
    obtain ⟨next, nextMarked, waits, _⟩ := coherent.onward _ marked
    cases waits with
    | link other =>
      rw [found] at other
      cases other
      rw [valueAt_of_marked orderly used run declared final coherent output nextMarked]
      rfl
    | dependency other => rw [found] at other; cases other
  · exact (carries_output orderly coherent placed used moduleId run declared final
      earlier.settled).linkedInput _ _

end

/-! ## Links in a recalculated workspace -/

theorem get?_values_getD (resolved : Workspace.Resolved) (id name : String) :
    ((resolved.values.get? id).getD .empty).get? name = resolved.value? ⟨id, name⟩ := by
  rw [Workspace.Resolved.value?]
  cases resolved.values.get? id with
  | none => exact Table.get?_empty ..
  | some inputs => rfl

section
variable {w : Workspace} {book : Pricebook} {resolved : Workspace.Resolved} {s : Resolution}
  (orderly : w.Orderly book) {i : Instance} (placed : i ∈ w.instances) {m : Module}
  (used : m ∈ w.modules) (moduleId : m.id = i.moduleId)
include orderly placed used moduleId

theorem declared_finals (unreported : ∀ p, ¬w.Reports p → resolved.value? p = none) :
    m.Declared ((resolved.values.get? i.id).getD .empty) := by
  intro name present
  by_contra undeclared
  have absent := unreported ⟨i.id, name⟩
    (mt (orderly.reports_iff placed used moduleId).mp undeclared)
  rw [Table.contains, get?_values_getD, absent] at present
  cases present

theorem get?_finals (reported : ∀ p, w.Reports p → ∃ value, resolved.value? p = some value ∧
      s.settled.get? p = some value) {f : Field} (field : f ∈ m.fields) :
    ((resolved.values.get? i.id).getD .empty).get? f.name.text =
      s.settled.get? ⟨i.id, f.name.text⟩ := by
  obtain ⟨input, value, settled⟩ := reported ⟨i.id, f.name.text⟩
    ((orderly.reports_iff placed used moduleId).mpr ⟨f, field, rfl⟩)
  rw [get?_values_getD, value, settled]

end

/-- In a recalculated workspace, a field that is linked to an output has a value exactly if the
output has one in the costs of its instance, and then the two are the same number. -/
theorem link_reads_output (w : Workspace) (book : Pricebook) (orderly : w.Orderly book)
    (r : Recalculation) (run : w.recalculate book = .ok r) :
    ∃ resolved, w.resolveAll book = .ok resolved ∧
      (∀ p, r.shown? p = (resolved.value? p).map (·.shown)) ∧
      ∀ a ∈ w.instances, ∀ ma ∈ w.modules, ma.id = a.moduleId → ∀ f ∈ ma.fields,
      ∀ b ∈ w.instances, ∀ mb ∈ w.modules, mb.id = b.moduleId → ∀ o ∈ mb.outputs,
        a.links.get? f.name.text = some ⟨b.id, o.key⟩ →
          ∃ input cost, resolved.value? ⟨a.id, f.name.text⟩ = some input ∧
            r.costs.get? b.id = some cost ∧
            (input.isBroken = false ↔ cost.values.contains o.key = true) ∧
            ∀ x, cost.values.get? o.key = some x → input = .given (.number x) := by
  obtain ⟨resolved, resolves, shown, costed⟩ := costs_of_recalculate orderly.instances run
  obtain ⟨s, coherent, reported, unreported⟩ := settled_of_resolveAll orderly.instances resolves
  refine ⟨resolved, resolves, shown, ?_⟩
  intro a drawing ma usedA moduleA f field b placed mb usedB moduleB o output link
  obtain ⟨cost, costs, listed⟩ := costed b placed
  rw [Workspace.instanceCost, orderly.get?_moduleTable usedB moduleB] at costs
  obtain ⟨results, computed, values⟩ := results_of_cost costs
  obtain ⟨input, value, settled⟩ := reported ⟨a.id, f.name.text⟩
    ((orderly.reports_iff drawing usedA moduleA).mpr ⟨f, field, rfl⟩)
  obtain ⟨own, source⟩ := orderly.source_link placed usedB moduleB output drawing f.name link
  obtain ⟨k, inRange, rfl⟩ := List.mem_iff_getElem.mp output
  have run := run_of_computeOutputs computed
  have carries : input.Carries (valueAt results k) :=
    carries_link orderly coherent placed usedB moduleB run
      (declared_finals orderly placed usedB moduleB unreported)
      (fun g => get?_finals orderly placed usedB moduleB reported) (k := ⟨k, inRange⟩)
      source settled
  have same : cost.values.get? mb.outputs[k].key = valueAt results k := by
    rw [values]
    exact run.get?_outputValues ⟨k, inRange⟩
  refine ⟨input, cost, value, listed, ?_, fun x computed => ?_⟩
  · rw [Table.contains, same]
    exact carries.isBroken_eq_false_iff
  · rw [same] at computed
    rw [computed] at carries
    exact carries

/-! An output behind one that fails, and a link to it. -/

def sheetModule : Module where
  id := "m"
  name := "Sheet"
  description := none
  category := none
  fields := [⟨"f1", "Rate", ⟨"rate", by decide⟩, .number, false, .blank, [], .numeric, none, none,
    none, none⟩]
  outputs := [⟨"o1", "Bad", ⟨"bad", by decide⟩, "x", none, none, true⟩,
    ⟨"o2", "Total", ⟨"total", by decide⟩, "rate", none, none, true⟩]
  formula := "rate"
  distinct := by decide +kernel

/-- Field `rate` of `a` is linked to the second output of `b`. -/
def sheets : Workspace :=
  ⟨[⟨"a", "m", .empty, .ofList [("rate", ⟨"b", "out.total"⟩)], none⟩,
    ⟨"b", "m", .ofList [("rate", .number 2)], .empty, none⟩], [sheetModule]⟩

theorem orderly_sheets : sheets.Orderly (.ofLists [] [] []) where
  instances := by decide +kernel
  modules := by decide +kernel
  declared := by
    intro i placed m used _ name present
    obtain rfl := List.mem_singleton.mp used
    simp only [sheets, List.mem_cons, List.not_mem_nil, or_false] at placed
    suffices named : name = "rate" from ⟨_, .head _, named.symm⟩
    obtain rfl | rfl := placed
    · obtain stored | linked := present
      · cases stored
      · exact List.mem_singleton.mp (Table.contains_ofList.mp linked)
    · obtain stored | linked := present
      · exact List.mem_singleton.mp (Table.contains_ofList.mp stored)
      · cases linked
  names := by
    intro m member
    obtain rfl := List.mem_singleton.mp member
    exact Module.unambiguous_of_noItems (by decide +kernel) (by decide +kernel)

theorem calm_sheets {book : Pricebook} : ∀ m ∈ sheets.modules, CalmExpression book m.formula ∧
    ∀ o ∈ m.outputs, CalmExpression book o.expression := by
  have rate : CalmExpression book "rate" := @calm_of_name book "rate" "rate" (by decide +kernel)
  have x : CalmExpression book "x" := @calm_of_name book "x" "x" (by decide +kernel)
  intro m member
  obtain rfl := List.mem_singleton.mp member
  refine ⟨rate, fun o output => ?_⟩
  simp only [sheetModule, List.mem_cons, List.not_mem_nil, or_false] at output
  obtain rfl | rfl := output
  · exact x
  · exact rate

theorem link_reads_output_of_sheet :
    ∃ r cost, ∃ input : FieldInput, sheets.recalculate (.ofLists [] [] []) = .ok r ∧
      r.shown? ⟨"a", "rate"⟩ = some input.shown ∧ r.costs.get? "b" = some cost ∧
      (input.isBroken = false ↔ cost.values.contains "out.total" = true) ∧
      ∀ x, cost.values.get? "out.total" = some x → input = .given (.number x) := by
  obtain ⟨r, run⟩ := exists_recalculate calm_sheets orderly_sheets.instances
  obtain ⟨resolved, _, shown, reads⟩ := link_reads_output sheets _ orderly_sheets r run
  obtain ⟨input, cost, value, listed, unbroken, number⟩ :=
    reads _ (.head _) sheetModule (.head _) rfl _ (.head _)
      _ (.tail _ (.head _)) sheetModule (.head _) rfl _ (.tail _ (.head _)) (by decide +kernel)
  refine ⟨r, cost, input, run, ?_, listed, unbroken, number⟩
  rw [shown]
  exact congrArg (Option.map FieldInput.shown) value

end Costing

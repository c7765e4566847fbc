import Costing.Proofs.Cost
import Costing.Proofs.Link.Source
import Costing.Proofs.Link.Totality
import Costing.Recalculation

/-! # What a recalculation returns

`costs_of_recalculate` takes a recalculated workspace apart: the fields are resolved once, and
every instance is costed from its own resolved fields.  `exists_recalculate` says that a
recalculation returns unless an expression crashes. -/

namespace Costing

section
variable {w : Workspace} {book : Pricebook}

theorem costs_of_instanceCosts {resolved : Workspace.Resolved} {instances : List Instance}
    {costs : List (Instance × InstanceCost)}
    (run : w.instanceCosts book resolved instances = .ok costs) :
    costs.map Prod.fst = instances ∧ ∀ e ∈ costs,
      w.instanceCost book e.1 ((resolved.values.get? e.1.id).getD .empty) = .ok e.2 := by
  induction instances generalizing costs with
  | nil =>
    cases run
    exact ⟨rfl, nofun⟩
  | cons i instances ih =>
    obtain ⟨c, first, rest⟩ := bind_eq_ok_iff.mp run
    obtain ⟨others, tail, made⟩ := bind_eq_ok_iff.mp rest
    cases made
    obtain ⟨all, each⟩ := ih tail
    refine ⟨by rw [List.map_cons, all], fun e member => ?_⟩
    obtain rfl | later := List.mem_cons.mp member
    · exact first
    · exact each e later

section
variable {costs : List (Instance × InstanceCost)}

theorem nodup_costs (distinct : ((costs.map Prod.fst).map (·.id)).Nodup) :
    ((costs.map fun e => (e.1.id, e.2)).map Prod.fst).Nodup := by
  simpa [List.map_map, Function.comp_def] using distinct

theorem get?_costs (unique : ((costs.map fun e => (e.1.id, e.2)).map Prod.fst).Nodup)
    {e : Instance × InstanceCost} (member : e ∈ costs) :
    (Table.ofList (costs.map fun e => (e.1.id, e.2))).get? e.1.id = some e.2 := by
  rw [Table.get?_ofList_of_nodup unique]
  exact Entries.get?_of_mem unique (List.mem_map.mpr ⟨e, member, rfl⟩)

end

/-- The value that a recalculated workspace shows in a field. -/
def Recalculation.shown? (r : Recalculation) (p : Place) : Option FieldValue :=
  (r.values.get? p.instanceId).bind (·.get? p.name)

/-- Every instance is costed from the resolved values of its fields, and these are shown. -/
theorem parts_of_recalculate (distinct : (w.instances.map (·.id)).Nodup) {r : Recalculation}
    (run : w.recalculate book = .ok r) :
    ∃ resolved, w.resolveAll book = .ok resolved ∧
      r.values = (resolved.values.mapValues fun _ inputs => inputs.mapValues fun _ v => v.shown) ∧
      r.broken = resolved.broken ∧ ∀ i ∈ w.instances, ∃ c,
        w.instanceCost book i ((resolved.values.get? i.id).getD .empty) = .ok c ∧
          r.costs.get? i.id = some c := by
  obtain ⟨resolved, first, rest⟩ := bind_eq_ok_iff.mp run
  obtain ⟨costs, ran, made⟩ := bind_eq_ok_iff.mp rest
  cases made
  obtain ⟨all, each⟩ := costs_of_instanceCosts ran
  refine ⟨resolved, first, rfl, rfl, fun i member => ?_⟩
  rw [← all] at distinct
  rw [← all, List.mem_map] at member
  obtain ⟨⟨_, c⟩, inCosts, rfl⟩ := member
  exact ⟨c, each _ inCosts, get?_costs (nodup_costs distinct) inCosts⟩

theorem costs_of_recalculate (distinct : (w.instances.map (·.id)).Nodup) {r : Recalculation}
    (run : w.recalculate book = .ok r) :
    ∃ resolved, w.resolveAll book = .ok resolved ∧
      (∀ p, r.shown? p = (resolved.value? p).map (·.shown)) ∧ ∀ i ∈ w.instances, ∃ c,
        w.instanceCost book i ((resolved.values.get? i.id).getD .empty) = .ok c ∧
          r.costs.get? i.id = some c := by
  obtain ⟨resolved, first, values, _, costed⟩ := parts_of_recalculate distinct run
  refine ⟨resolved, first, fun p => ?_, costed⟩
  rw [Recalculation.shown?, Workspace.Resolved.value?, values, Table.get?_mapValues]
  cases resolved.values.get? p.instanceId with
  | none => rfl
  | some inputs => exact Table.get?_mapValues ..

/-! ## Recalculations that return -/

theorem exists_cost {m : Module} (formula : CalmExpression book m.formula)
    (outputs : ∀ o ∈ m.outputs, CalmExpression book o.expression)
    (inputs : Table String FieldInput) (id : String) : ∃ c, m.cost book inputs id = .ok c := by
  obtain ⟨results, computed⟩ := exists_computeOutputs outputs inputs
  have outcome : ∃ result, m.evaluateFormula book inputs (outputValues results) = .ok result := by
    rw [Module.evaluateFormula]
    cases m.unmet? inputs with
    | some cause => exact ⟨_, rfl⟩
    | none => exact settled_of_calm formula rfl
  obtain ⟨result, evaluated⟩ := outcome
  exact ⟨_, Module.cost_eq_ok_iff.mpr ⟨results, result, computed, evaluated, rfl⟩⟩

theorem mem_modules_of_computed (distinct : (w.instances.map (·.id)).Nodup) {p : Place}
    {i : Instance} {m : Module} {o : Output} (found : w.source p = .computed i m o) :
    m ∈ w.modules := by
  have explains := w.explains_source distinct p
  rw [found] at explains
  cases explains with
  | computed _ _ used => exact (Table.mem_of_get?_indexBy used).1

section
variable (calm : ∀ m ∈ w.modules, CalmExpression book m.formula ∧
  ∀ o ∈ m.outputs, CalmExpression book o.expression)
include calm

theorem exists_instanceCosts (resolved : Workspace.Resolved) (instances : List Instance) :
    ∃ costs, w.instanceCosts book resolved instances = .ok costs := by
  induction instances with
  | nil => exact ⟨[], rfl⟩
  | cons i instances ih =>
    obtain ⟨costs, rest⟩ := ih
    have first : ∃ c, w.instanceCost book i ((resolved.values.get? i.id).getD .empty) = .ok c := by
      rw [Workspace.instanceCost]
      cases found : w.moduleTable.get? i.moduleId with
      | none => exact ⟨_, rfl⟩
      | some m =>
        obtain ⟨formula, outputs⟩ := calm m (Table.mem_of_get?_indexBy found).1
        exact exists_cost formula outputs ..
    obtain ⟨c, first⟩ := first
    exact ⟨_, bind_eq_ok_iff.mpr ⟨c, first, bind_eq_ok_iff.mpr ⟨costs, rest, rfl⟩⟩⟩

/-- A workspace is recalculated if none of its expressions crashes. -/
theorem exists_recalculate (distinct : (w.instances.map (·.id)).Nodup) :
    ∃ r, w.recalculate book = .ok r := by
  have everywhere : w.Calm book fun _ => True :=
    ⟨fun _ _ => trivial, fun _ found inputs =>
      exists_computeOutputs (calm _ (mem_modules_of_computed distinct found)).2 inputs⟩
  obtain ⟨resolved, ran⟩ :=
    everywhere.exists_resolveAll distinct fun _ _ => trivial
  obtain ⟨costs, costed⟩ : ∃ costs, w.instanceCosts book resolved w.instances = .ok costs :=
    exists_instanceCosts calm resolved w.instances
  exact ⟨_, bind_eq_ok_iff.mpr ⟨resolved, ran, bind_eq_ok_iff.mpr ⟨costs, costed, rfl⟩⟩⟩

end

end

end Costing

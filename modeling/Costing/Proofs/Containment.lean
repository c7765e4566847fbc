import Costing.Proofs.Link.OutputLink
import Mathlib.Data.List.Forall2

/-! # Faults stay inside their instance

A formula comes to a finite number or to a fault, except where it asks for the greatest or least of
one number alone; nothing else escapes (`Formula.outcome_of_ne_crash`).  So where no text asks for
that, a recalculation returns, and a fault of one instance is recorded as the fault of that instance
while all others are costed: `faults_stay_inside` puts the two together. -/

namespace Costing

/-- There is a finite cost or a fault, and not both. -/
def InstanceCost.IsDecided (c : InstanceCost) : Prop :=
  (∃ x, c.cost = some x ∧ x.isFinite = true ∧ c.fault = none) ∨
    c.cost = none ∧ ∃ fault, c.fault = some fault

/-- A recalculated workspace has one decided cost for each instance, which the instance shows. -/
structure Recalculation.Covers (r : Recalculation) (instances : List Instance) : Prop where
  keys : r.costs.keys = instances.map (·.id)
  each : List.Forall₂ (fun i shown => ∃ c, r.costs.get? i.id = some c ∧ c.instanceId = i.id ∧
    c.IsDecided ∧ shown = { i with calculatedCost := c.cost }) instances r.instances

section
variable {w : Workspace} {book : Pricebook}

theorem finite_of_settled {s : Formula.Scope} {expression : String} {x : Float}
    (settled : (Formula.evaluate s expression).settled = .ok (.ok x)) : x.isFinite = true := by
  cases outcome : Formula.evaluate s expression with
  | value y =>
    rw [outcome] at settled
    cases settled
    exact Formula.isFinite_of_value outcome
  | fault f => rw [outcome] at settled; cases settled
  | crash => rw [outcome] at settled; cases settled

theorem decided_of_cost {m : Module} {inputs : Table String FieldInput} {id : String}
    {c : InstanceCost} (run : m.cost book inputs id = .ok c) :
    c.instanceId = id ∧ c.IsDecided := by
  obtain ⟨results, outcome, _, evaluated, rfl⟩ := Module.cost_eq_ok_iff.mp run
  cases outcome with
  | error fault => exact ⟨rfl, .inr ⟨rfl, _, rfl⟩⟩
  | ok x =>
    refine ⟨rfl, .inl ⟨x, rfl, ?_, rfl⟩⟩
    rw [Module.evaluateFormula] at evaluated
    cases unmet : m.unmet? inputs with
    | some cause =>
      -- the formula is not evaluated at all, and has no number
      rw [unmet] at evaluated
      cases evaluated
    | none =>
      rw [unmet] at evaluated
      exact finite_of_settled evaluated

theorem decided_of_instanceCost {i : Instance} {inputs : Table String FieldInput}
    {c : InstanceCost} (run : w.instanceCost book i inputs = .ok c) :
    c.instanceId = i.id ∧ c.IsDecided := by
  rw [Workspace.instanceCost] at run
  cases used : w.moduleTable.get? i.moduleId with
  | none =>
    rw [used] at run
    cases run
    exact ⟨rfl, .inr ⟨rfl, _, rfl⟩⟩
  | some m =>
    rw [used] at run
    exact decided_of_cost run

theorem covers_of_recalculate (distinct : (w.instances.map (·.id)).Nodup) {r : Recalculation}
    (run : w.recalculate book = .ok r) : r.Covers w.instances := by
  obtain ⟨resolved, _, rest⟩ := bind_eq_ok_iff.mp run
  obtain ⟨costs, ran, made⟩ := bind_eq_ok_iff.mp rest
  cases made
  obtain ⟨all, each⟩ := costs_of_instanceCosts ran
  rw [← all] at distinct ⊢
  have unique := nodup_costs distinct
  refine ⟨?_, ?_⟩
  · dsimp only
    rw [Table.keys_ofList unique]
    simp [List.map_map, Function.comp_def]
  · rw [List.forall₂_map_left_iff, List.forall₂_map_right_iff, List.forall₂_same]
    intro e member
    obtain ⟨id, decided⟩ := decided_of_instanceCost (each e member)
    exact ⟨e.2, get?_costs unique member, id, decided, rfl⟩

end

/-- A formula comes to a finite number or a fault unless it meets a call for the greatest or least
of one number alone.  A workspace none of whose texts has such a call is recalculated, with one
decided cost for each instance. -/
theorem faults_stay_inside :
    (∀ (s : Formula.Scope) (formula : String), ¬Formula.ReachesLoneExtremum s formula →
      (∃ x, Formula.evaluate s formula = .value x ∧ x.isFinite = true) ∨
        ∃ fault, Formula.evaluate s formula = .fault fault) ∧
    ∀ (w : Workspace) (book : Pricebook), (w.instances.map (·.id)).Nodup →
      (∀ m ∈ w.modules, Formula.asksLoneExtremum m.formula = false ∧
        ∀ o ∈ m.outputs, Formula.asksLoneExtremum o.expression = false) →
      book.AsksNoLoneExtremum →
      ∃ r, w.recalculate book = .ok r ∧ r.Covers w.instances := by
  refine ⟨fun s formula meets => ?_, fun w book distinct texts bodies => ?_⟩
  · exact Formula.outcome_of_ne_crash (mt Formula.evaluate_eq_crash_iff.mp meets)
  · have calm : ∀ m ∈ w.modules, CalmExpression book m.formula ∧
        ∀ o ∈ m.outputs, CalmExpression book o.expression := fun m used =>
      ⟨calm_of_asks bodies (texts m used).1,
        fun o declared => calm_of_asks bodies ((texts m used).2 o declared)⟩
    obtain ⟨r, run⟩ := exists_recalculate calm distinct
    exact ⟨r, run, covers_of_recalculate distinct run⟩

/-- Two sheets and an instance whose module is missing. -/
def strayedSheets : Workspace :=
  { sheets with instances := sheets.instances ++ [⟨"c", "gone", .empty, .empty, none⟩] }

theorem faults_stay_inside_strayed :
    ((∃ x, Formula.evaluate ⟨.ofLists [] [] [], .empty, 0⟩ "max(1, 2)" = .value x ∧
        x.isFinite = true) ∨
      ∃ fault, Formula.evaluate ⟨.ofLists [] [] [], .empty, 0⟩ "max(1, 2)" = .fault fault) ∧
    ∃ r, strayedSheets.recalculate (.ofLists [] [] []) = .ok r ∧
      r.Covers strayedSheets.instances := by
  have bodies : (Pricebook.ofLists [] [] []).AsksNoLoneExtremum := nofun
  refine ⟨faults_stay_inside.1 _ _ ?_,
    faults_stay_inside.2 _ _ (by decide +kernel) (by decide +kernel) bodies⟩
  exact Formula.not_meets_of_asks bodies (by decide +kernel)

end Costing

import Costing.Proofs.Link.Reading
import Costing.Proofs.Output.Failure
import Costing.Service

/-! # Previews and workspaces

A preview costs a module from values alone.  In a workspace, an instance without links is costed
from the same values, but for those that are stored under the keys of outputs: they are left out.
The two agree as long as no expression reads such a value (`preview_costs_as_workspace`), and where
one does, the preview takes the stored value for the output (`preview_reads_stale_output`). -/

namespace Costing

section
variable {w : Workspace} {book : Pricebook} {r : Recalculation} {i : Instance} {m : Module}

/-- An instance without links costs what its module costs from inputs that are the stored ones
under all plain names. -/
theorem cost_of_unlinked (distinct : (w.instances.map (·.id)).Nodup)
    (run : w.recalculate book = .ok r) (placed : i ∈ w.instances) (unlinked : i.links = .empty)
    (used : w.moduleTable.get? i.moduleId = some m) :
    ∃ c, r.costs.get? i.id = some c ∧ ∀ inputs : Table String FieldInput,
      (∀ n, hasOutputPrefix n = false → m.input? i.storedInputs n = m.input? inputs n) →
      m.Shields inputs c.values →
        ∀ id, m.cost book inputs id = .ok { c with instanceId := id } := by
  obtain ⟨resolved, resolves, _, _, costed⟩ := parts_of_recalculate distinct run
  obtain ⟨s, consistent⟩ := exists_consistent distinct resolves
  obtain ⟨c, cost, listed⟩ := costed i placed
  rw [Workspace.instanceCost, used] at cost
  refine ⟨c, listed, fun inputs same shields => consistent.cost_congr cost (fun n plain _ => ?_)
    shields⟩
  rw [← same n plain]
  exact consistent.input?_of_unlinked distinct placed used plain (by rw [unlinked]; rfl)

end

/-- A preview of the values of an instance without links has the cost of the instance, and the same
fault, values and faults of outputs, as long as no expression reads a value that is stored under
the key of an output. -/
theorem preview_costs_as_workspace (w : Workspace) (book : Pricebook)
    (distinct : (w.instances.map (·.id)).Nodup) (r : Recalculation)
    (run : w.recalculate book = .ok r) (i : Instance) (placed : i ∈ w.instances)
    (unlinked : i.links = .empty) (m : Module) (used : w.moduleTable.get? i.moduleId = some m) :
    ∃ c, r.costs.get? i.id = some c ∧ (m.Shields i.storedInputs c.values →
      Service.costPreview (⟨book, m⟩, i.values) =
        .ok (Report.instanceCost { c with instanceId := "" })) := by
  obtain ⟨c, listed, costs⟩ := cost_of_unlinked distinct run placed unlinked used
  refine ⟨c, listed, fun shields => ?_⟩
  have cost := costs i.storedInputs (fun _ _ => rfl) shields ""
  exact bind_eq_ok_iff.mpr ⟨_, mapError_eq_ok_iff.mpr cost, rfl⟩

/-! An instance with a value under the key of an output. -/

def staleSheet (width : FieldValue) : Workspace :=
  ⟨[⟨"a", "m", .ofList [("width", width), ("out.ratio", .number 9)], .empty, none⟩],
    [ratioModule]⟩

section
variable {width : FieldValue}

theorem distinct_staleSheet : ((staleSheet width).instances.map (·.id)).Nodup :=
  List.nodup_singleton _

theorem used_staleSheet : (staleSheet width).moduleTable.get? "m" = some ratioModule := by
  have distinct : ((staleSheet width).modules.map (·.id)).Nodup := List.nodup_singleton _
  exact (Table.get?_indexBy_iff distinct).mpr ⟨.head _, rfl⟩

theorem calm_staleSheet : ∀ m ∈ (staleSheet width).modules,
    CalmExpression (.ofLists [] [] []) m.formula ∧
      ∀ o ∈ m.outputs, CalmExpression (.ofLists [] [] []) o.expression := by
  have bodies : (Pricebook.ofLists [] [] []).AsksNoLoneExtremum := nofun
  have asks : ∀ e ∈ ratioModule.expressions, Formula.asksLoneExtremum e = false := by
    decide +kernel
  intro m member
  obtain rfl := List.mem_singleton.mp member
  refine ⟨calm_of_asks bodies (asks _ (List.mem_append_right _ (.head _))), fun o output => ?_⟩
  exact calm_of_asks bodies (asks _ (List.mem_append_left _ (List.mem_map_of_mem output)))

/-- In the workspace the instance costs what its module costs from the width alone. -/
theorem cost_staleSheet {r : Recalculation}
    (run : (staleSheet width).recalculate (.ofLists [] [] []) = .ok r) :
    ∃ c, r.costs.get? "a" = some c ∧
      ratioModule.cost (.ofLists [] [] []) (wallInputs width) "" =
        .ok { c with instanceId := "" } := by
  obtain ⟨c, listed, costs⟩ := cost_of_unlinked distinct_staleSheet run (.head _) rfl
    used_staleSheet
  have unprefixed : ∀ n, (wallInputs width).contains n = true → hasOutputPrefix n = false := by
    intro n stored
    obtain rfl : n = "width" := List.mem_singleton.mp (Table.contains_ofList.mp stored)
    decide
  refine ⟨c, listed, costs _ (fun n plain => ?_) (Module.shields_of_unprefixed unprefixed) ""⟩
  have other : n ≠ "out.ratio" := by
    rintro rfl
    exact absurd plain (by decide)
  apply Module.input?_congr
  rw [Instance.storedInputs, Table.get?_mapValues, wallInputs, Table.get?_ofList,
    Table.get?_ofList]
  by_cases width : n = "width"
  · simp [width]
  · simp [Ne.symm width, Ne.symm other]

/-- Where the ratio can be computed, the value under its key is not read. -/
theorem preview_costs_as_workspace_shielded :
    ∃ r c, (staleSheet (.number 2)).recalculate (.ofLists [] [] []) = .ok r ∧
      r.costs.get? "a" = some c ∧
      Service.costPreview (⟨.ofLists [] [] [], ratioModule⟩,
        .ofList [("width", .number 2), ("out.ratio", .number 9)]) =
          .ok (Report.instanceCost { c with instanceId := "" }) := by
  obtain ⟨r, run⟩ := exists_recalculate calm_staleSheet distinct_staleSheet
  obtain ⟨c, listed, previews⟩ := preview_costs_as_workspace (staleSheet (.number 2)) _
    distinct_staleSheet r run _ (.head _) rfl ratioModule used_staleSheet
  obtain ⟨c', listed', cost⟩ := cost_staleSheet run
  rw [listed] at listed'
  cases listed'
  obtain ⟨_, cost', computed⟩ : ∃ c,
      ratioModule.cost (.ofLists [] [] []) (wallInputs (.number 2)) "" = .ok c ∧
        c.values.contains "out.ratio" = true := exists_ok_of_check (by decide +kernel)
  rw [cost] at cost'
  cases cost'
  refine ⟨r, c, run, listed, previews fun {position e} here n referenced behind stored => ?_⟩
  rw [Instance.storedInputs, Table.contains_mapValues] at stored
  have among : n ∈ ["width", "out.ratio"] := Table.contains_ofList.mp stored
  simp only [List.mem_cons, List.not_mem_nil, or_false] at among
  obtain rfl | rfl := among
  · exact absurd behind (by decide)
  cases position with
  | zero =>
    -- the ratio itself refers to the width only
    cases here
    exact absurd referenced (by decide +kernel)
  | succ k => exact ⟨⟨0, by decide⟩, Nat.succ_pos k, rfl, computed⟩

/-- Where it cannot, the preview takes that value for the ratio, and the workspace has no cost. -/
theorem preview_reads_stale_output :
    ∃ r c c', (staleSheet (.number 0)).recalculate (.ofLists [] [] []) = .ok r ∧
      r.costs.get? "a" = some c ∧
      Service.costPreview (⟨.ofLists [] [] [], ratioModule⟩,
        .ofList [("width", .number 0), ("out.ratio", .number 9)]) =
          .ok (Report.instanceCost c') ∧
      c.isOk = false ∧ c'.isOk = true := by
  obtain ⟨r, run⟩ := exists_recalculate calm_staleSheet distinct_staleSheet
  obtain ⟨c, listed, cost⟩ := cost_staleSheet run
  obtain ⟨_, cost', failed⟩ : ∃ c,
      ratioModule.cost (.ofLists [] [] []) (wallInputs (.number 0)) "" = .ok c ∧
        (c.isOk == false) = true := exists_ok_of_check (by decide +kernel)
  rw [cost] at cost'
  cases cost'
  obtain ⟨c', previewed, succeeded⟩ : ∃ c, ratioModule.cost (.ofLists [] [] [])
      ((Table.ofList [("width", .number 0), ("out.ratio", .number 9)]).mapValues
        fun _ v => .given v) "" = .ok c ∧ c.isOk = true := exists_ok_of_check (by decide +kernel)
  refine ⟨r, c, c', run, listed, ?_, beq_iff_eq.mp failed, succeeded⟩
  exact bind_eq_ok_iff.mpr ⟨c', mapError_eq_ok_iff.mpr previewed, rfl⟩

end

end Costing

import Costing.Proofs.Link.Reading
import Costing.Service

/-! # Line items

A line item keeps the stored values of an instance next to its cost, which comes from the resolved
ones.  `line_item_is_priced_from_resolved_values` says when the two belong together: the module
costs the same from the values of the item if the linked fields that it reads hold what their links
carry, and no expression reads a value stored under the key of an output.  The value of a linked
field is not brought up to date when the item is made (`line_item_keeps_stale_value`). -/

namespace Costing

theorem lineItemFor_eq_ok_iff {id : String} {i : Instance} {m : Module} {c : InstanceCost}
    {item : LineItem} :
    lineItemFor id i m c = .ok item ↔ c.fault = none ∧ ∃ cost, c.cost = some cost ∧
      item = ⟨id, i.moduleId, m.name, i.values,
        m.summary i.storedInputs Settings.summaryCount, cost⟩ := by
  unfold lineItemFor
  cases c.fault with
  | some fault => simp
  | none =>
    cases c.cost with
    | none => simp
    | some cost => simp [eq_comm]

section
variable {w : Workspace} {book : Pricebook}

theorem findInstance_eq_ok_iff {id : String} {i : Instance} :
    Service.findInstance w id = .ok i ↔ w.firstInstance? id = some i := by
  unfold Service.findInstance
  cases w.firstInstance? id <;> simp

/-- The steps behind a line item. -/
theorem lineItem_eq_ok_iff {id : String} {answer : Json} :
    Service.lineItem (⟨book, w⟩, id) = .ok answer ↔ ∃ i m r c item,
      w.firstInstance? id = some i ∧ w.firstModule? i.moduleId = some m ∧
      w.recalculate book = .ok r ∧ r.costs.get? i.id = some c ∧ lineItemFor "" i m c = .ok item ∧
      answer = .object (Report.lineItemEntries item) := by
  constructor
  · intro answered
    obtain ⟨i, found, rest⟩ := bind_eq_ok_iff.mp answered
    cases defined : w.firstModule? i.moduleId with
    | none =>
      simp only [defined] at rest
      cases rest
    | some m =>
      simp only [defined] at rest
      obtain ⟨r, run, rest⟩ := bind_eq_ok_iff.mp rest
      cases listed : r.costs.get? i.id with
      | none =>
        simp only [listed] at rest
        cases rest
      | some c =>
        simp only [listed] at rest
        obtain ⟨item, made, result⟩ := bind_eq_ok_iff.mp rest
        cases result
        exact ⟨i, m, r, c, item, findInstance_eq_ok_iff.mp found, defined,
          mapError_eq_ok_iff.mp run, listed, mapError_eq_ok_iff.mp made, rfl⟩
  · rintro ⟨i, m, r, c, item, found, defined, run, listed, made, rfl⟩
    refine bind_eq_ok_iff.mpr ⟨i, findInstance_eq_ok_iff.mpr found, ?_⟩
    simp only [defined]
    refine bind_eq_ok_iff.mpr ⟨r, mapError_eq_ok_iff.mpr run, ?_⟩
    simp only [listed]
    exact bind_eq_ok_iff.mpr ⟨item, mapError_eq_ok_iff.mpr made, rfl⟩

end

/-- A line item has the stored values of its instance and their summary, and the cost of the
resolved ones.  Evaluating its values gives that cost if the linked names that the module reads are
stored as they are resolved and no expression reads a value under the key of an output. -/
theorem line_item_is_priced_from_resolved_values (w : Workspace) (book : Pricebook)
    (instances : (w.instances.map (·.id)).Nodup) (modules : (w.modules.map (·.id)).Nodup)
    (id : String) (answer : Json) (answered : Service.lineItem (⟨book, w⟩, id) = .ok answer) :
    ∃ i ∈ w.instances, i.id = id ∧ ∃ m ∈ w.modules, m.id = i.moduleId ∧ ∃ resolved item c,
      w.resolveAll book = .ok resolved ∧ answer = .object (Report.lineItemEntries item) ∧
      item.values = i.values ∧ item.summary = m.summary i.storedInputs Settings.summaryCount ∧
      m.cost book (resolved.inputs id) id = .ok c ∧ c.cost = some item.cost ∧
      ((∀ n, i.links.contains n = true → m.Reads n →
          m.input? (resolved.inputs id) n = m.input? i.storedInputs n) →
        m.Shields i.storedInputs c.values →
          m.cost book (item.values.mapValues fun _ v => .given v) id = .ok c) := by
  obtain ⟨i, m, r, c, item, found, defined, run, listed, made, rfl⟩ :=
    lineItem_eq_ok_iff.mp answered
  rw [Workspace.firstInstance?, Table.find?_eq_get?_indexBy instances] at found
  rw [Workspace.firstModule?, Table.find?_eq_get?_indexBy modules] at defined
  obtain ⟨placed, rfl⟩ := Table.mem_of_get?_indexBy found
  obtain ⟨used, moduleId⟩ := Table.mem_of_get?_indexBy defined
  obtain ⟨resolved, resolves, _, _, costed⟩ := parts_of_recalculate instances run
  obtain ⟨s, consistent⟩ := exists_consistent instances resolves
  obtain ⟨c', cost, listed'⟩ := costed i placed
  rw [listed] at listed'
  cases listed'
  rw [Workspace.instanceCost, Workspace.moduleTable, defined] at cost
  obtain ⟨_, x, price, rfl⟩ := lineItemFor_eq_ok_iff.mp made
  refine ⟨i, placed, rfl, m, used, moduleId, resolved, _, c, resolves, rfl, rfl, rfl, cost, price,
    fun kept shields => ?_⟩
  refine (consistent.cost_congr cost (fun n plain reads => ?_) shields i.id).trans
    (congrArg Except.ok (Module.renamed_of_cost cost))
  cases linked : i.links.get? n with
  | some link => exact kept n (Table.contains_of_get? linked) reads
  | none => exact consistent.input?_of_unlinked instances placed defined plain linked

/-! The item of a sheet whose fare is linked. -/

/-- The inputs of a sheet. -/
def fareInputs (fare : FieldValue) : Table String FieldInput := .ofList [("fare", .given fare)]

theorem reads_fareModule {id : String} {default : FieldValue} {n : String}
    (reads : (fareModule id default).Reads n) : n = "fare" := by
  obtain ⟨f, field, required, _⟩ | ⟨e, among, k, referenced, named⟩ := reads
  · obtain rfl := List.mem_singleton.mp field
    cases required
  · obtain rfl := List.mem_singleton.mp among
    have names : ∀ k ∈ referencedNames "fare", k = "fare" ∧ (Formula.splitName k).1 = "fare" := by
      decide +kernel
    obtain ⟨whole, base⟩ := names k referenced
    exact named.elim (·.trans whole) (·.trans base)

theorem unprefixed_fareInputs {fare : FieldValue} {n : String}
    (given : (fareInputs fare).contains n = true) : hasOutputPrefix n = false := by
  obtain rfl : n = "fare" := List.mem_singleton.mp (Table.contains_ofList.mp given)
  decide

section
variable {own source : Table String FieldValue} {book : Pricebook} {fare : FieldValue}

/-- The sheet reads the fare behind its link. -/
theorem input?_fareSheets {resolved : Workspace.Resolved}
    (run : (fareSheets own source).resolveAll book = .ok resolved)
    (stored : source.get? "fare" = some fare) {n : String}
    (reads : (fareModule "plain" .blank).Reads n) :
    (fareModule "plain" .blank).input? (resolved.inputs "a") n =
      (fareModule "plain" .blank).input? (fareInputs fare) n := by
  obtain rfl := reads_fareModule reads
  apply Module.input?_congr
  rw [Workspace.Resolved.get?_inputs, (value?_fareSheets run).1, stored]
  rfl

theorem exists_lineItem_fareSheets (stored : source.get? "fare" = some fare) {c : InstanceCost}
    (cost : (fareModule "plain" .blank).cost book (fareInputs fare) "a" = .ok c)
    (ok : c.isOk = true) : ∃ item, Service.lineItem (⟨book, fareSheets own source⟩, "a") =
        .ok (.object (Report.lineItemEntries item)) ∧
      item.values = own ∧ c.cost = some item.cost := by
  obtain ⟨r, run⟩ := @exists_recalculate (fareSheets own source) book calm_fareSheets
    distinct_fareSheets.1
  obtain ⟨resolved, resolves, _, _, costed⟩ := parts_of_recalculate distinct_fareSheets.1 run
  obtain ⟨s, consistent⟩ := exists_consistent distinct_fareSheets.1 resolves
  obtain ⟨c', cost', listed⟩ := costed _ (.head _)
  rw [Workspace.instanceCost, moduleTable_fareSheets.1] at cost'
  have again := consistent.cost_congr cost'
    (fun n _ reads => input?_fareSheets resolves stored reads)
    (Module.shields_of_unprefixed fun _ => unprefixed_fareInputs) "a"
  rw [cost, Module.renamed_of_cost cost'] at again
  cases again
  rw [InstanceCost.isOk, Bool.and_eq_true, Option.isNone_iff_eq_none,
    Option.isSome_iff_exists] at ok
  obtain ⟨fault, price, priced⟩ := ok
  refine ⟨_, lineItem_eq_ok_iff.mpr ⟨_, fareModule "plain" .blank, r, c, _, ?_, ?_, run, listed,
    lineItemFor_eq_ok_iff.mpr ⟨fault, price, priced, rfl⟩, rfl⟩, rfl, priced⟩
  · exact rfl
  · exact rfl

end

/-- The values of the item give its cost where the stored fare is the one behind the link. -/
theorem line_item_is_priced_from_resolved_values_fare :
    ∃ item c, Service.lineItem (⟨.ofLists [] [] [],
        fareSheets (.ofList [("fare", .number 2)]) (.ofList [("fare", .number 2)])⟩, "a") =
          .ok (.object (Report.lineItemEntries item)) ∧
      (fareModule "plain" .blank).cost (.ofLists [] [] [])
        (item.values.mapValues fun _ v => .given v) "a" = .ok c ∧ c.cost = some item.cost := by
  obtain ⟨_, cost, ok⟩ : ∃ c, (fareModule "plain" .blank).cost (.ofLists [] [] [])
      (fareInputs (.number 2)) "a" = .ok c ∧ c.isOk = true := exists_ok_of_check (by decide +kernel)
  have stored : (Table.ofList [("fare", FieldValue.number 2)]).get? "fare" = some (.number 2) := rfl
  obtain ⟨_, answered, _, _⟩ := @exists_lineItem_fareSheets (.ofList [("fare", .number 2)]) _ _ _
    stored _ cost ok
  obtain ⟨i, placed, id, m, used, moduleId, resolved, item, c, resolves, same, _, _, _, price,
    again⟩ := line_item_is_priced_from_resolved_values _ _ distinct_fareSheets.1
      distinct_fareSheets.2 "a" _ answered
  simp only [fareSheets, List.mem_cons, List.not_mem_nil, or_false] at placed used
  obtain rfl | rfl := placed
  · obtain rfl | rfl := used
    · refine ⟨item, c, answered.trans (congrArg Except.ok same), again (fun n _ reads => ?_) ?_,
        price⟩
      · exact input?_fareSheets resolves stored reads
      · exact Module.shields_of_unprefixed fun _ => @unprefixed_fareInputs (.number 2) _
    · exact absurd moduleId (by decide)
  · exact absurd id (by decide)

/-- The item of a sheet whose stored fare is out of date keeps that fare next to the cost of the
other one. -/
theorem line_item_keeps_stale_value :
    ∃ item c, Service.lineItem (⟨.ofLists [] [] [],
        fareSheets (.ofList [("fare", .number 1)]) (.ofList [("fare", .number 2)])⟩, "a") =
          .ok (.object (Report.lineItemEntries item)) ∧
      (fareModule "plain" .blank).cost (.ofLists [] [] [])
        (item.values.mapValues fun _ v => .given v) "a" = .ok c ∧ c.cost ≠ some item.cost := by
  obtain ⟨resolved, cost, high⟩ : ∃ c, (fareModule "plain" .blank).cost (.ofLists [] [] [])
      (fareInputs (.number 2)) "a" = .ok c ∧ (c.isOk && c.cost.all (1.5 < ·)) = true :=
    exists_ok_of_check (by decide +kernel)
  obtain ⟨kept, cost', low⟩ : ∃ c, (fareModule "plain" .blank).cost (.ofLists [] [] [])
      (fareInputs (.number 1)) "a" = .ok c ∧ (c.isOk && !c.cost.all (1.5 < ·)) = true :=
    exists_ok_of_check (by decide +kernel)
  rw [Bool.and_eq_true] at high low
  obtain ⟨item, answered, values, price⟩ := @exists_lineItem_fareSheets
    (.ofList [("fare", .number 1)]) (.ofList [("fare", .number 2)]) _ _ rfl _ cost high.1
  refine ⟨item, kept, answered, values ▸ cost', fun same => ?_⟩
  rw [same, ← price, high.2] at low
  cases low.2

end Costing

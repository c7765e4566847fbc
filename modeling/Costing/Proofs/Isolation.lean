import Costing.Proofs.Link.Lockstep
import Costing.Proofs.Link.OutputLink

/-! # Edits of unrelated instances

`unrelated_edit_keeps_cost`: other values in one instance change nothing about another instance from
which no links lead to it, whatever else is linked to the one or to the other.

The instances that links lead to are kept apart by `Workspace.LinksInstance`; the workspace before
the edit and the one behind it are searched in step with one another (`parallel_revalued`), and the
cost of an instance is computed from its own resolved values. -/

namespace Costing

open Relation (ReflTransGen)

/-- An instance with other values, if it has the given identifier, under the keys that it has. -/
def Instance.revalued (id : String) (values : String → FieldValue) (i : Instance) : Instance :=
  { i with values := if i.id = id then i.values.mapValues fun key _ => values key else i.values }

namespace Workspace

/-- The workspace with other values in one instance, under the keys that it has. -/
def revalued (w : Workspace) (id : String) (values : String → FieldValue) : Workspace :=
  { w with instances := w.instances.map (·.revalued id values) }

/-- A field of an instance is linked to a place in another one. -/
def LinksInstance (w : Workspace) (a b : String) : Prop :=
  ∃ i ∈ w.instances, i.id = a ∧ ∃ field link, i.links.get? field = some link ∧ link.instanceId = b

end Workspace

section
variable {w : Workspace} {book : Pricebook} {id : String} {values : String → FieldValue}

theorem Instance.revalued_of_ne {i : Instance} (other : i.id ≠ id) : i.revalued id values = i := by
  rw [revalued, if_neg other]

theorem Instance.moduleId_revalued (i : Instance) :
    (i.revalued id values).moduleId = i.moduleId := rfl

theorem Instance.links_revalued (i : Instance) : (i.revalued id values).links = i.links := rfl

theorem Instance.keys_revalued (i : Instance) :
    (i.revalued id values).values.keys = i.values.keys := by
  rw [revalued]
  dsimp only
  split
  · exact Table.keys_mapValues ..
  · rfl

theorem Workspace.instanceTable_revalued (q : String) :
    (w.revalued id values).instanceTable.get? q =
      (w.instanceTable.get? q).map (·.revalued id values) := by
  rw [instanceTable, instanceTable, revalued]
  exact Table.get?_indexBy_map (Instance.revalued id values) (fun _ => rfl) q

theorem Workspace.moduleTable_revalued :
    (w.revalued id values).moduleTable = w.moduleTable := rfl

theorem Workspace.linkSource_revalued (link : Place) (own : FieldValue) :
    (w.revalued id values).linkSource link own = w.linkSource link own := by
  rw [linkSource, linkSource, instanceTable_revalued]
  cases w.instanceTable.get? link.instanceId <;> rfl

theorem Workspace.fieldNames_revalued (i : Instance) :
    (w.revalued id values).fieldNames (i.revalued id values) = w.fieldNames i := by
  rw [fieldNames, fieldNames, Instance.keys_revalued]
  rfl

theorem alongside_linkSource {same : Prop} {own own' : FieldValue} (agree : same → own' = own)
    (link : Place) : Alongside same (w.linkSource link own) (w.linkSource link own') := by
  rw [Workspace.linkSource, Workspace.linkSource]
  cases w.instanceTable.get? link.instanceId with
  | none => exact .severed agree
  | some i =>
    dsimp only
    cases (w.moduleTable.get? i.moduleId).bind (·.target? link.name) with
    | none => exact .severed agree
    | some t => exact .linked agree

theorem alongside_revalued (p : Place) :
    Alongside (p.instanceId ≠ id) (w.source p) ((w.revalued id values).source p) := by
  rw [Workspace.source, Workspace.source, Workspace.instanceTable_revalued]
  cases found : w.instanceTable.get? p.instanceId with
  | none => exact .nowhere
  | some i =>
    have agree (other : p.instanceId ≠ id) : i.revalued id values = i :=
      Instance.revalued_of_ne ((Table.mem_of_get?_indexBy found).2 ▸ other)
    dsimp only [Option.map_some]
    split
    · rw [Workspace.outputSource, Workspace.outputSource, Workspace.moduleTable_revalued,
        Instance.moduleId_revalued]
      cases w.moduleTable.get? i.moduleId with
      | none => exact .nowhere
      | some m =>
        dsimp only
        cases m.output? p.name with
        | none => exact .nowhere
        | some o => exact .computed agree
    · rw [Workspace.fieldSource, Workspace.fieldSource, Instance.links_revalued]
      have own (other : p.instanceId ≠ id) := congrArg
        (fun i : Instance => (i.values.get? p.name).getD .blank) (agree other)
      cases i.links.get? p.name with
      | none => exact .stored own
      | some link =>
        dsimp only
        rw [Workspace.linkSource_revalued]
        exact alongside_linkSource own link

section
variable {a : String} (apart : ¬ReflTransGen w.LinksInstance a id)
include apart

theorem ne_of_reached {q : String} (reached : ReflTransGen w.LinksInstance a q) : q ≠ id :=
  fun same => apart (same ▸ reached)

theorem parallel_revalued (distinct : (w.instances.map (·.id)).Nodup) :
    Parallel (ReflTransGen w.LinksInstance a) w (w.revalued id values) where
  sources p := (alongside_revalued p).weaken (ne_of_reached apart)
  onward {p link own} here found := by
    have explains := w.explains_source distinct p
    rw [found] at explains
    cases explains with
    | linked placed owner _ stored => exact here.tail ⟨_, placed, owner, _, _, stored, rfl⟩

end

/-! ## The whole workspace -/

theorem lockstep_of_resolveInstances {inside : String → Prop}
    (parallel : Parallel inside w (w.revalued id values)) {instances : List Instance}
    {found found' fields fields' : Workspace.FieldInputs} {s s' t t' : Resolution}
    (lock : Lockstep inside s s') (same : ∀ a, inside a → found'.get? a = found.get? a)
    (run : w.resolveInstances book instances found s = .ok (fields, t))
    (run' : (w.revalued id values).resolveInstances book (instances.map (·.revalued id values))
      found' s' = .ok (fields', t')) :
    Lockstep inside t t' ∧ ∀ a, inside a → fields'.get? a = fields.get? a := by
  induction instances generalizing found found' s s' with
  | nil =>
    cases run
    cases run'
    exact ⟨lock, same⟩
  | cons i instances ih =>
    obtain ⟨⟨inputs, middle⟩, first, rest⟩ := bind_eq_ok_iff.mp run
    obtain ⟨⟨inputs', middle'⟩, first', rest'⟩ := bind_eq_ok_iff.mp run'
    rw [Workspace.fieldNames_revalued] at first'
    have each (name : String) (s s' : Resolution) (value value' : FieldInput) (t t' : Resolution)
        (lock : Lockstep inside s s') (ran : w.resolve book [] ⟨i.id, name⟩ s = .ok (value, t))
        (ran' : (w.revalued id values).resolve book [] ⟨i.id, name⟩ s' = .ok (value', t')) :
        Lockstep inside t t' ∧ (inside i.id → value' = value) :=
      lockstep_of_resolve parallel lock ran ran'
    obtain ⟨lock, agree⟩ := lockstep_of_gather (inside i.id) each lock (fun _ => rfl) first first'
    refine ih lock (fun a here => ?_) rest rest'
    rw [Table.get?_insert, Table.get?_insert, same a here]
    by_cases this : i.id = a
    · rw [if_pos this, if_pos (show (i.revalued id values).id = a from this), agree (this ▸ here)]
    · rw [if_neg this, if_neg (show (i.revalued id values).id ≠ a from this)]

theorem Workspace.distinct_revalued (distinct : (w.instances.map (·.id)).Nodup) :
    ((w.revalued id values).instances.map (·.id)).Nodup := by
  rw [revalued, List.map_map]
  exact distinct

theorem resolved_of_apart (distinct : (w.instances.map (·.id)).Nodup) {a : String}
    (apart : ¬ReflTransGen w.LinksInstance a id) {resolved resolved' : Workspace.Resolved}
    (run : w.resolveAll book = .ok resolved)
    (run' : (w.revalued id values).resolveAll book = .ok resolved') :
    resolved'.values.get? a = resolved.values.get? a ∧
      resolved'.broken.filter (·.place.instanceId = a) =
        resolved.broken.filter (·.place.instanceId = a) := by
  obtain ⟨s, ran, broken⟩ := run_of_resolveAll distinct run
  obtain ⟨s', ran', broken'⟩ := run_of_resolveAll (Workspace.distinct_revalued distinct) run'
  obtain ⟨lock, agree⟩ := lockstep_of_resolveInstances (parallel_revalued apart distinct) .start
    (fun _ _ => rfl) ran ran'
  rw [broken, broken']
  exact ⟨agree a .refl, lock.broken a .refl⟩

end

/-- Whatever is stored in an instance under the keys that it has: an instance from which no links
lead to it keeps its cost, its resolved values and its broken links. -/
theorem unrelated_edit_keeps_cost (w : Workspace) (book : Pricebook)
    (distinct : (w.instances.map (·.id)).Nodup) (id : String) (values : String → FieldValue)
    (a : Instance) (placed : a ∈ w.instances) (apart : ¬ReflTransGen w.LinksInstance a.id id)
    (r r' : Recalculation) (run : w.recalculate book = .ok r)
    (run' : (w.revalued id values).recalculate book = .ok r') :
    (∃ c, r.costs.get? a.id = some c ∧ r'.costs.get? a.id = some c) ∧
      r'.values.get? a.id = r.values.get? a.id ∧
      r'.broken.filter (·.place.instanceId = a.id) = r.broken.filter (·.place.instanceId = a.id) ∧
      ∃ resolved resolved', w.resolveAll book = .ok resolved ∧
        (w.revalued id values).resolveAll book = .ok resolved' ∧
        resolved'.values.get? a.id = resolved.values.get? a.id := by
  have other : a.id ≠ id := ne_of_reached apart .refl
  have placed' : a ∈ (w.revalued id values).instances :=
    List.mem_map.mpr ⟨a, placed, Instance.revalued_of_ne other⟩
  obtain ⟨resolved, resolves, shown, broken, costed⟩ := parts_of_recalculate distinct run
  obtain ⟨resolved', resolves', shown', broken', costed'⟩ :=
    parts_of_recalculate (Workspace.distinct_revalued distinct) run'
  obtain ⟨same, sameBroken⟩ := resolved_of_apart distinct apart resolves resolves'
  obtain ⟨c, cost, listed⟩ := costed a placed
  obtain ⟨c', cost', listed'⟩ := costed' a placed'
  refine ⟨⟨c, listed, ?_⟩, ?_, ?_, resolved, resolved', resolves, resolves', same⟩
  · -- the instance, its module and its resolved values are the same
    rw [same] at cost'
    have again : w.instanceCost book a ((resolved.values.get? a.id).getD .empty) = .ok c' := cost'
    rw [cost] at again
    rw [listed', Except.ok.inj again]
  · rw [shown, shown', Table.get?_mapValues, Table.get?_mapValues, same]
  · rw [broken, broken', sameBroken]

/-- The sheets and a third one, linked to a field of the first. -/
def joinedSheets : Workspace :=
  { sheets with instances := sheets.instances ++
      [⟨"c", "m", .ofList [("rate", .number 7)], .ofList [("rate", ⟨"a", "rate"⟩)], none⟩] }

theorem apart_joinedSheets : ¬ReflTransGen joinedSheets.LinksInstance "a" "c" := by
  have closed : ∀ i ∈ joinedSheets.instances, i.id ≠ "c" →
      ∀ e ∈ i.links.entries, e.2.instanceId ≠ "c" := by decide +kernel
  have onward {q q' : String} (inside : q ≠ "c") (links : joinedSheets.LinksInstance q q') :
      q' ≠ "c" := by
    obtain ⟨i, placed, rfl, field, link, stored, rfl⟩ := links
    exact closed i placed inside _ (Entries.mem_of_get? stored)
  intro reached
  have inside {q : String} (reached : ReflTransGen joinedSheets.LinksInstance "a" q) :
      q ≠ "c" := by
    induction reached with
    | refl => decide
    | tail _ links ih => exact onward ih links
  exact inside reached rfl

theorem unrelated_edit_keeps_cost_joined :
    ∃ r r' c, joinedSheets.recalculate (.ofLists [] [] []) = .ok r ∧
      (joinedSheets.revalued "c" fun _ => .number 9).recalculate (.ofLists [] [] []) = .ok r' ∧
      r.costs.get? "a" = some c ∧ r'.costs.get? "a" = some c := by
  have distinct : (joinedSheets.instances.map (·.id)).Nodup := by decide +kernel
  obtain ⟨r, run⟩ := exists_recalculate (w := joinedSheets) calm_sheets distinct
  obtain ⟨r', run'⟩ := exists_recalculate (w := joinedSheets.revalued "c" fun _ => .number 9)
    calm_sheets (Workspace.distinct_revalued distinct)
  obtain ⟨⟨c, before, behind⟩, _⟩ := unrelated_edit_keeps_cost joinedSheets _ distinct "c" _ _
    (.head _) apart_joinedSheets r r' run run'
  exact ⟨r, r', c, run, run', before, behind⟩

end Costing

import Costing.Link.Proposal
import Costing.Proofs.CycleSearch
import Costing.Proofs.Link.Coherence
import Costing.Proofs.Link.Source
import Costing.Proofs.Output.Dependency

/-! # The graph of links and dependencies

The check of a proposed link and the resolution of values follow the same graph, each in a way of
its own: the check lists its edges, the resolution looks the source of each place up.
`Workspace.DependsOn` describes the edges that are listed, and every step of the resolution is one
of them (`Workspace.Waits.dependsOn`).

An accepted link closes no cycle (`acyclic_edgesWith`): the search of the check is complete, and
a cycle through the new edge could be reached from its source. -/

namespace Costing

open Relation (ReflTransGen TransGen)

section
variable {V : Type} {edges edges' : List (V × V)}

theorem Acyclic.mono (acyclic : Acyclic edges)
    (within : ∀ u v, Adjacent edges' u v → Adjacent edges u v) : Acyclic edges' :=
  fun v around => acyclic v (TransGen.mono within v v around)

end

namespace Workspace

/-- A linked field depends on the place behind its link, and an output on the fields that are found
for its expression. -/
inductive DependsOn (w : Workspace) (p : Place) : Place → Prop where
  | link {i : Instance} {q : Place} (placed : i ∈ w.instances) (id : i.id = p.instanceId)
      (stored : i.links.get? p.name = some q) : w.DependsOn p q
  | dependency {i : Instance} {m : Module} {o : Output} {field : String}
      (placed : i ∈ w.instances) (id : i.id = p.instanceId)
      (used : w.moduleTable.get? i.moduleId = some m) (declared : o ∈ m.outputs)
      (key : o.key = p.name) (member : field ∈ m.dependencies o.name.text) :
      w.DependsOn p ⟨p.instanceId, field⟩

variable {w : Workspace}

theorem mem_edges_iff {p q : Place} : Adjacent w.edges p q ↔ w.DependsOn p q := by
  rw [Adjacent, edges, List.mem_flatMap]
  constructor
  · rintro ⟨i, placed, edge⟩
    rw [edgesOf] at edge
    obtain link | dependency := List.mem_append.mp edge
    · obtain ⟨⟨name, target⟩, entry, made⟩ := List.mem_map.mp link
      cases made
      exact .link placed rfl (Table.get?_of_mem entry)
    · cases used : w.moduleTable.get? i.moduleId with
      | none => rw [used] at dependency; cases dependency
      | some m =>
        rw [used] at dependency
        obtain ⟨o, declared, inside⟩ := List.mem_flatMap.mp dependency
        obtain ⟨field, member, made⟩ := List.mem_map.mp inside
        cases made
        exact .dependency placed rfl used declared rfl member
  · obtain ⟨_, name⟩ := p
    intro depends
    cases depends with
    | @link i q placed id stored =>
      cases id
      exact ⟨i, placed, List.mem_append_left _
        (List.mem_map.mpr ⟨(name, q), Entries.mem_of_get? stored, rfl⟩)⟩
    | @dependency i m o field placed id used declared key member =>
      cases id
      cases key
      refine ⟨i, placed, List.mem_append_right _ ?_⟩
      rw [used]
      exact List.mem_flatMap.mpr ⟨o, declared, List.mem_map.mpr ⟨field, member, rfl⟩⟩

theorem Waits.dependsOn (distinct : (w.instances.map (·.id)).Nodup) {p q : Place}
    (waits : w.Waits p q) : w.DependsOn p q := by
  have explains := w.explains_source distinct p
  cases waits with
  | link found =>
    rw [found] at explains
    cases explains with
    | linked placed id _ stored => exact .link placed id stored
  | dependency found member =>
    rw [found] at explains
    cases explains with
    | computed placed id used declared key =>
      exact .dependency placed id used declared key member

/-- Without links every edge leads from an output to a field. -/
theorem acyclic_of_unlinked (unlinked : ∀ i ∈ w.instances, ∀ name, i.links.get? name = none) :
    Acyclic w.edges := by
  intro p around
  have ends {p q : Place} (edge : Adjacent w.edges p q) :
      hasOutputPrefix p.name = true ∧ hasOutputPrefix q.name = false := by
    cases mem_edges_iff.mp edge with
    | link placed id stored => rw [unlinked _ placed] at stored; cases stored
    | @dependency _ _ o _ _ _ _ declared key member =>
      obtain ⟨f, _, rfl⟩ := Module.exists_field_of_dependency declared member
      exact ⟨key ▸ o.hasOutputPrefix_key, hasOutputPrefix_of_plain f.name.plain⟩
  -- a cycle begins at an output and ends at a field
  obtain ⟨_, first, _⟩ := TransGen.head'_iff.mp around
  obtain ⟨_, _, last⟩ := TransGen.tail'_iff.mp around
  have both := (ends first).1
  rw [(ends last).2] at both
  cases both

/-! ## Accepted links -/

theorem adjacent_edgesWith_iff {source target p q : Place} :
    Adjacent (w.edgesWith source target) p q ↔
      p = source ∧ q = target ∨ w.DependsOn p q ∧ p ≠ source := by
  rw [← mem_edges_iff, Adjacent, edgesWith, List.mem_cons, List.mem_filter, Prod.mk.injEq,
    decide_eq_true_eq]
  rfl

theorem acyclic_edgesWith (acyclic : Acyclic w.edges) {source target : Place}
    (none : w.cycleWith? source target = none) : Acyclic (w.edgesWith source target) := by
  intro p around
  by_cases reached : ReflTransGen (Adjacent (w.edgesWith source target)) source p
  · exact acyclic_of_cycleFrom? none reached around
  · -- a cycle apart from the source was there before
    have before {u v : Place} (edge : Adjacent (w.edgesWith source target) u v)
        (onward : ReflTransGen (Adjacent (w.edgesWith source target)) u p) :
        Adjacent w.edges u v := by
      obtain ⟨rfl, _⟩ | ⟨depends, _⟩ := adjacent_edgesWith_iff.mp edge
      · exact absurd onward reached
      · exact mem_edges_iff.mpr depends
    have along {u : Place} (path : TransGen (Adjacent (w.edgesWith source target)) u p) :
        TransGen (Adjacent w.edges) u p := by
      induction path using TransGen.head_induction_on with
      | single edge => exact .single (before edge (.single edge))
      | head edge rest ih => exact .head (before edge (.head edge rest.to_reflTransGen)) ih
    exact acyclic p (along around)

/-- A link joins a declared field to a declared field or output that goes with it. -/
def Joins (w : Workspace) (source target : Place) : Prop :=
  ∃ f t, w.HasTarget source (.field f) ∧ w.HasTarget target t ∧ compatible f t = true

theorem Joins.plain {source target : Place} (joins : w.Joins source target) :
    hasOutputPrefix source.name = false := by
  obtain ⟨f, _, ⟨_, _, targets⟩, _⟩ := joins
  generalize source.name = name at targets
  cases targets with
  | field => exact hasOutputPrefix_of_plain f.name.plain

theorem hasTarget_of_firstInstance? {q : Place} {i : Instance} {m : Module} {t : LinkTarget}
    (found : w.firstInstance? q.instanceId = some i)
    (used : w.moduleTable.get? i.moduleId = some m) (targets : m.Targets q.name t) :
    w.HasTarget q t :=
  ⟨m, ⟨i, List.mem_of_find?_eq_some found, by simpa using List.find?_some found, used⟩, targets⟩

theorem hasTarget_of_linkEnds {source target : Place} {f : Field} {t : LinkTarget}
    (ends : w.linkEnds source target = .ok (f, t)) :
    w.HasTarget source (.field f) ∧ w.HasTarget target t := by
  unfold linkEnds at ends
  split at ends
  · cases ends
  · cases ends
  · next i j first second =>
    split at ends
    · next m n usedBySource usedByTarget =>
      split at ends
      · cases ends
      · next field declared =>
        cases ends
        obtain ⟨inFields, named⟩ := Module.mem_of_field? field
        exact ⟨hasTarget_of_firstInstance? first usedBySource (named ▸ .field inFields),
          hasTarget_of_firstInstance? second usedByTarget (Module.target?_eq_some_iff.mp declared)⟩
      · cases ends
    · cases ends

theorem joins_of_checkLink {source target : Place} (accepted : w.checkLink source target = .ok ()) :
    w.Joins source target ∧ w.cycleWith? source target = none := by
  unfold checkLink at accepted
  split at accepted
  · cases accepted
  · split at accepted
    · cases accepted
    · next f t ends =>
      split at accepted
      · next together =>
        split at accepted
        · cases accepted
        · next none =>
          obtain ⟨atSource, atTarget⟩ := hasTarget_of_linkEnds ends
          exact ⟨⟨f, t, atSource, atTarget, together⟩, none⟩
      · cases accepted

end Workspace

end Costing

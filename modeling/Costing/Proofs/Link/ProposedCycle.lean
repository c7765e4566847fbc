import Costing.Proofs.Link.Cycle
import Costing.Proofs.Link.Edges

/-! # The cycles that a proposed link closes

The check of a proposed link searches the graph of links and dependencies in which the link
stands in place of whatever its source depended on (`Workspace.DependsWith`).
`cycle_search_is_exact` puts together what `Proofs/CycleSearch` says about every search, and adds
what is special to this one: where the graph had no cycle before, a cycle that is found can only be
due to the new edge, and so it passes through it. -/

namespace Costing

open Relation (ReflTransGen TransGen)

/-- A walk either takes a step, or stays with the steps that are left without it. -/
theorem isChain_or_infix {V : Type} {R S : V → V → Prop} {source target : V}
    (splits : ∀ u v, R u v → u = source ∧ v = target ∨ S u v) {path : List V}
    (walk : path.IsChain R) : [source, target] <:+: path ∨ path.IsChain S := by
  by_cases taken : [source, target] <:+: path
  · exact .inl taken
  · rw [List.isChain_iff_forall_rel_of_append_cons_cons] at walk ⊢
    refine .inr fun u v before after split => ?_
    obtain ⟨rfl, rfl⟩ | kept := splits u v (walk split)
    · exact absurd ⟨before, after, by rw [split]; simp⟩ taken
    · exact kept

namespace Workspace

/-- The graph of links and dependencies once a place draws from another one and from nothing
else. -/
def DependsWith (w : Workspace) (source target p q : Place) : Prop :=
  p = source ∧ q = target ∨ w.DependsOn p q ∧ p ≠ source

variable {w : Workspace} {source target : Place}

theorem adjacent_edgesWith :
    Adjacent (w.edgesWith source target) = w.DependsWith source target := by
  funext p q
  exact propext adjacent_edgesWith_iff

/-- A new cycle takes the new edge. -/
theorem passes_of_acyclic (acyclic : Acyclic w.edges) {p : Place} {between : List Place}
    (walk : (p :: between ++ [p]).IsChain (w.DependsWith source target)) :
    [source, target] <:+: p :: between ++ [p] := by
  obtain passes | before := isChain_or_infix (S := Adjacent w.edges)
    (fun u v step => step.imp_right fun kept => mem_edges_iff.mpr kept.1) walk
  · exact passes
  · exact absurd (transGen_of_isChain before) (acyclic p)

/-- The search for a cycle that a proposed link closes finds none exactly if none can be reached
from the source of the link in the graph with the link.  What it finds begins and ends with one
place and follows the edges of that graph, and it passes through the link where there was no cycle
before.  Whatever the graph, the search takes a run of moves that cannot go on for ever, and answers
with what the run ends in. -/
theorem cycle_search_is_exact (w : Workspace) (source target : Place) :
    (w.cycleWith? source target = none ↔
      ∀ p, ReflTransGen (w.DependsWith source target) source p →
        ¬TransGen (w.DependsWith source target) p p) ∧
    (∀ cycle, w.cycleWith? source target = some cycle →
      (∃ p between, cycle = p :: between ++ [p]) ∧
      cycle.IsChain (w.DependsWith source target) ∧
      (Acyclic w.edges → [source, target] <:+: cycle)) ∧
    (WellFounded fun later earlier : SearchState (w.edgesWith source target) =>
      SearchMove earlier later) ∧
    ∃ last : SearchState (w.edgesWith source target),
      ReflTransGen SearchMove (.start source) last ∧
        SearchEnds last (w.cycleWith? source target) := by
  refine ⟨?_, fun cycle found => ?_, wellFounded_searchMove, run_of_cycleFrom? _ source⟩
  · rw [cycleWith?, cycleFrom?_eq_none_iff, adjacent_edgesWith]
  · obtain ⟨p, between, rfl, _, walk⟩ := traced_of_cycleFrom? found
    rw [adjacent_edgesWith] at walk
    exact ⟨⟨p, between, rfl⟩, walk, fun acyclic => passes_of_acyclic acyclic walk⟩

/-- Field `u` of `b` is linked to an output that reads field `u` of `a`. -/
def oneWay : Workspace :=
  ⟨[⟨"a", "m", .empty, .empty, none⟩,
    ⟨"b", "m", .empty, .ofList [("u", ⟨"a", "out.both"⟩)], none⟩], [singleModule]⟩

theorem edges_oneWay : oneWay.edges =
    [(⟨"a", "out.both"⟩, ⟨"a", "u"⟩), (⟨"b", "u"⟩, ⟨"a", "out.both"⟩),
      (⟨"b", "out.both"⟩, ⟨"b", "u"⟩)] := by
  have used : oneWay.moduleTable.get? "m" = some singleModule := rfl
  have declared : singleModule.outputs = [bothOf "u"] := rfl
  have read : singleModule.dependencies (bothOf "u").name.text = ["u"] :=
    dependencies_singleModule
  have key : (bothOf "u").key = "out.both" := by decide +kernel
  have edgesOf (i : Instance) (uses : i.moduleId = "m") : oneWay.edgesOf i =
      (i.links.entries.map fun e => (⟨i.id, e.1⟩, e.2)) ++
        [(⟨i.id, "out.both"⟩, ⟨i.id, "u"⟩)] := by
    simp [Workspace.edgesOf, uses, used, declared, read, key]
  rw [edges, oneWay, List.flatMap_cons, List.flatMap_cons, ← oneWay, edgesOf _ rfl, edgesOf _ rfl]
  rfl

/-- Every edge leads to a place of a lower rank. -/
def oneWayRank (p : Place) : Nat :=
  if p.instanceId = "a" then if p.name = "u" then 0 else 1
  else if p.name = "u" then 2 else 3

theorem acyclic_oneWay : Acyclic oneWay.edges := by
  have falls : ∀ e ∈ oneWay.edges, oneWayRank e.2 < oneWayRank e.1 := by
    rw [edges_oneWay]
    decide
  exact not_transGen_of_rank fun p q => falls (p, q)

/-- A link back closes a cycle through the output, and the search finds one that takes the link. -/
theorem cycle_search_is_exact_oneWay :
    ∃ cycle, oneWay.cycleWith? ⟨"a", "u"⟩ ⟨"b", "u"⟩ = some cycle ∧
      cycle.IsChain (oneWay.DependsWith ⟨"a", "u"⟩ ⟨"b", "u"⟩) ∧
      [⟨"a", "u"⟩, ⟨"b", "u"⟩] <:+: cycle := by
  obtain ⟨none_iff, found, _⟩ := cycle_search_is_exact oneWay ⟨"a", "u"⟩ ⟨"b", "u"⟩
  have kept {p q : Place} (edge : (p, q) ∈ oneWay.edges) (other : p ≠ ⟨"a", "u"⟩) :
      oneWay.DependsWith ⟨"a", "u"⟩ ⟨"b", "u"⟩ p q := .inr ⟨mem_edges_iff.mp edge, other⟩
  have around : TransGen (oneWay.DependsWith ⟨"a", "u"⟩ ⟨"b", "u"⟩) ⟨"a", "u"⟩ ⟨"a", "u"⟩ :=
    .tail (.tail (.single (.inl ⟨rfl, rfl⟩))
      (kept (q := ⟨"a", "out.both"⟩) (by rw [edges_oneWay]; decide) (by decide)))
      (kept (by rw [edges_oneWay]; decide) (by decide))
  cases answer : oneWay.cycleWith? ⟨"a", "u"⟩ ⟨"b", "u"⟩ with
  | none => exact absurd around (none_iff.mp answer _ .refl)
  | some cycle =>
    obtain ⟨_, walk, passes⟩ := found cycle answer
    exact ⟨cycle, rfl, walk, passes acyclic_oneWay⟩

end Workspace

end Costing

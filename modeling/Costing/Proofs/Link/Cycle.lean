import Costing.Proofs.Link.Consistency
import Costing.Proofs.Link.Graph
import Costing.Proofs.Link.Lockstep

/-! # What the reason `cycle` says

A field whose link is broken for the reason `cycle` lies on a cycle of the graph that the resolution
follows, and every cycle has such a field (`cycle_reason_iff_loop`).

It need not be every field of the cycle.  An output may lead to several fields, so cycles may share
places, and a place settles when the search leaves it: whatever is found later about a cycle
through it comes too late.  For a field from which one goes around in a single way the
reason and the graph agree, and then the order of the workspace does not matter either. -/

namespace Costing

open Relation (TransGen ReflTransGen)

namespace Workspace

/-- A resolved workspace reports that a field is on a cycle. -/
def Resolved.IsCyclic (r : Resolved) (p : Place) : Prop :=
  ∃ own, r.value? p = some (.broken .cycle own)

section
variable {w : Workspace} {p : Place}

theorem reason_of_severed {reason : BrokenReason} {link : Place} {own : FieldValue}
    (found : w.source p = .severed reason link own) : reason ≠ .cycle := by
  rintro rfl
  simp only [source, outputSource, fieldSource, linkSource] at found
  repeat' split at found
  all_goals cases found

end

end Workspace

theorem passedOn_ne_cycle (link : Place) (reason : BrokenReason) :
    passedOn link reason ≠ .cycle := by
  unfold passedOn
  split <;> nofun

section
variable {w : Workspace} {book : Pricebook} {walk : List Place} {s : Resolution} {p : Place}
  (coherent : Coherent w book walk s)
include coherent

theorem Coherent.marked_of_cycle {own : FieldValue}
    (settled : s.settled.get? p = some (.broken .cycle own)) : p ∈ s.onCycle := by
  have gives := (coherent.backed settled).gives
  cases found : w.source p with
  | stored own => rw [found] at gives; cases gives
  | severed reason link own =>
    rw [found] at gives
    cases gives
    exact absurd rfl (Workspace.reason_of_severed found)
  | nowhere => rw [found] at gives; cases gives
  | linked link own =>
    rw [found] at gives
    obtain ⟨marked, _⟩ | ⟨_, target, _, same⟩ := gives
    · exact marked
    · cases target with
      | given x => cases same
      | broken reason fallback =>
        injection same with reason
        exact absurd reason.symm (passedOn_ne_cycle link _)
  | computed i m o =>
    rw [found] at gives
    obtain marked | ⟨_, results, _, _, _, same⟩ := gives
    · exact marked
    · cases value : (outputValues results).get? o.key <;> rw [value] at same <;> cases same

end

section
variable {w : Workspace} {book : Pricebook} {s : Resolution} (coherent : Coherent w book [] s)
  (distinct : (w.instances.map (·.id)).Nodup)
include coherent distinct

theorem Coherent.cycle_of_marked {p : Place} (marked : p ∈ s.onCycle)
    (plain : hasOutputPrefix p.name = false) :
    w.Reports p ∧ ∃ own, s.settled.get? p = some (.broken .cycle own) := by
  obtain ⟨value, settled⟩ := Option.isSome_iff_exists.mp
    (Table.contains_iff.mpr ((coherent.known p marked).resolve_left List.not_mem_nil))
  obtain ⟨next, _, waits, _⟩ := coherent.onward p marked
  cases waits with
  | @link _ own found =>
    obtain ⟨i, placed, id, named, _⟩ :=
      reports_of_link distinct (show (w.source p).link? = some next by rw [found]; rfl)
    obtain ⟨_, rfl⟩ | ⟨unmarked, _⟩ := (coherent.backed settled).of_linked found
    · exact ⟨⟨i, placed, id, named⟩, own, settled⟩
    · exact absurd marked unmarked
  | @dependency _ _ o _ found _ =>
    have explains := w.explains_source distinct p
    rw [found] at explains
    cases explains with
    | computed _ _ _ _ key =>
      have isOutput := o.hasOutputPrefix_key
      rw [key, plain] at isOutput
      cases isOutput

/-- A cycle passes through a field that is marked. -/
theorem Coherent.exists_field_of_loop {p : Place} {value : FieldInput}
    (settled : s.settled.get? p = some value) (loop : TransGen w.Leads p p) :
    ∃ q ∈ s.onCycle, hasOutputPrefix q.name = false ∧ ReflTransGen w.Leads p q ∧
      ReflTransGen w.Leads q p := by
  obtain ⟨m, marked, out, back⟩ := coherent.exists_marked_of_loop distinct settled loop
  cases isOutput : hasOutputPrefix m.name with
  | false => exact ⟨m, marked, isOutput, out, back⟩
  | true =>
    -- an output leads to fields only
    obtain ⟨next, nextMarked, step, around⟩ := coherent.onward m marked
    rw [Workspace.waits_eq_leads distinct] at step around
    refine ⟨next, nextMarked, ?_, out.tail step, around.trans back⟩
    cases step with
    | link _ _ plain => rw [plain] at isOutput; cases isOutput
    | dependency _ declared _ member =>
      obtain ⟨f, _, rfl⟩ := Module.exists_field_of_dependency declared member
      exact hasOutputPrefix_of_plain f.name.plain

end

namespace Workspace

section
variable {w w' : Workspace} (alike : Alike w w') (instances : (w.instances.map (·.id)).Nodup)
  (instances' : (w'.instances.map (·.id)).Nodup) (modules : (w.modules.map (·.id)).Nodup)
  (modules' : (w'.modules.map (·.id)).Nodup)
include alike instances instances' modules modules'

theorem Alike.leads_eq : w'.Leads = w.Leads := by
  funext p q
  exact propext ⟨alike.symm.leads instances' instances modules' modules,
    alike.leads instances instances' modules modules'⟩

end

/-- Which fields of a resolved workspace are reported to be on a cycle. -/
structure ReportsCycles (w : Workspace) (r : Resolved) : Prop where
  sound : ∀ p, r.IsCyclic p → TransGen w.Leads p p
  /-- On every cycle of a reported field there is a field that is reported to be on it. -/
  noticed : ∀ p, w.Reports p → TransGen w.Leads p p →
    ∃ q, r.IsCyclic q ∧ ReflTransGen w.Leads p q ∧ ReflTransGen w.Leads q p
  /-- The reports are complete for fields from which one goes around in a single way. -/
  complete : ∀ p, w.Reports p → w.SingleReturn p → (r.IsCyclic p ↔ TransGen w.Leads p p)

theorem reportsCycles_of_resolveAll {w : Workspace} {book : Pricebook}
    (distinct : (w.instances.map (·.id)).Nodup) {r : Resolved} (run : w.resolveAll book = .ok r) :
    w.ReportsCycles r := by
  obtain ⟨s, coherent, shown, unreported⟩ := settled_of_resolveAll distinct run
  have cyclic {q : Place} (marked : q ∈ s.onCycle) (plain : hasOutputPrefix q.name = false) :
      r.IsCyclic q := by
    obtain ⟨reports, own, settled⟩ := coherent.cycle_of_marked distinct marked plain
    obtain ⟨value, reported, settled'⟩ := shown q reports
    rw [settled] at settled'
    cases settled'
    exact ⟨own, reported⟩
  have sound {p : Place} (cyclic : r.IsCyclic p) : TransGen w.Leads p p := by
    obtain ⟨own, reported⟩ := cyclic
    by_cases reports : w.Reports p
    · obtain ⟨value, reported', settled⟩ := shown p reports
      rw [reported] at reported'
      cases reported'
      exact waits_eq_leads distinct ▸ coherent.loops p (coherent.marked_of_cycle settled)
    · rw [unreported p reports] at reported
      cases reported
  refine ⟨fun p => sound, fun p reports loop => ?_, fun p reports single => ⟨sound, fun loop => ?_⟩⟩
  · -- some place of the cycle is marked, and so a field of it
    obtain ⟨_, _, settled⟩ := shown p reports
    obtain ⟨q, marked, plain, out, back⟩ := coherent.exists_field_of_loop distinct settled loop
    exact ⟨q, cyclic marked plain, out, back⟩
  · obtain ⟨_, _, settled⟩ := shown p reports
    obtain ⟨_, _, _, named⟩ := reports
    exact cyclic (coherent.marked_of_loop distinct single settled loop) (mem_fieldNames.mp named).2

/-- A field that is reported to be on a cycle lies on one, and every cycle is noticed.  For a field
from which one goes around in a single way both agree, whatever the order of the workspace. -/
theorem cycle_reason_iff_loop (w : Workspace) (book : Pricebook)
    (instances : (w.instances.map (·.id)).Nodup) (modules : (w.modules.map (·.id)).Nodup)
    (r : Resolved) (run : w.resolveAll book = .ok r) :
    w.ReportsCycles r ∧ ∀ w', Rearranged w w' → ∀ r', w'.resolveAll book = .ok r' →
      ∀ p, w.Reports p → w.SingleReturn p → (r'.IsCyclic p ↔ r.IsCyclic p) := by
  have cycles := reportsCycles_of_resolveAll instances run
  refine ⟨cycles, fun w' rearranged r' run' p reports single => ?_⟩
  have alike := rearranged.alike
  have instances' := rearranged.ids.nodup_iff.mp instances
  have modules' := (rearranged.modules.map (·.id)).nodup_iff.mp modules
  have cycles' := reportsCycles_of_resolveAll instances' run'
  have same := alike.leads_eq instances instances' modules modules'
  have single' : w'.SingleReturn p := by rwa [SingleReturn, same]
  rw [cycles.complete p reports single,
    cycles'.complete p (alike.reports modules modules' reports) single', same]

/-! ## Cycles that do not meet -/

/-- Where an output depends on one field at most, one goes around in a single way. -/
theorem singleReturn_of_narrow {w : Workspace} (distinct : (w.instances.map (·.id)).Nodup)
    (narrow : ∀ m ∈ w.modules, ∀ o ∈ m.outputs, ∀ field ∈ m.dependencies o.name.text,
      ∀ other ∈ m.dependencies o.name.text, field = other) (p : Place) : w.SingleReturn p := by
  intro q r r' _ first second _ _
  rw [← waits_eq_leads distinct] at first second
  cases first with
  | link found =>
    cases second with
    | link found' => rw [found] at found'; cases found'; rfl
    | dependency found' => rw [found] at found'; cases found'
  | dependency found member =>
    cases second with
    | link found' => rw [found] at found'; cases found'
    | dependency found' member' =>
      have explains := w.explains_source distinct q
      rw [found] at explains found'
      cases found'
      cases explains with
      | computed _ _ used declared =>
        have inModules := (Table.mem_of_get?_indexBy used).1
        rw [narrow _ inModules _ declared _ member _ member']

def bothOf (expression : String) : Output := plainOutput ⟨"both", by decide⟩ expression

/-- Two fields, and an output that reads one of them. -/
def singleModule : Module where
  id := "m"
  name := "Single"
  description := none
  category := none
  fields := [numberField ⟨"u", by decide⟩, numberField ⟨"v", by decide⟩]
  outputs := [bothOf "u"]
  formula := "u"
  distinct := by decide +kernel

/-- Two instances that read each other's `both`. -/
def paired : Workspace :=
  ⟨[⟨"a", "m", .empty, .ofList [("u", ⟨"b", "out.both"⟩)], none⟩,
    ⟨"b", "m", .empty, .ofList [("u", ⟨"a", "out.both"⟩)], none⟩], [singleModule]⟩

theorem dependencies_singleModule : singleModule.dependencies "both" = ["u"] :=
  (Module.dependencies_of_leaf (m := singleModule) (i := ⟨0, by decide⟩) (by decide +kernel)).trans
    (by decide +kernel)

theorem distinct_paired : (paired.instances.map (·.id)).Nodup := by decide +kernel

theorem singleReturn_paired : paired.SingleReturn ⟨"a", "u"⟩ := by
  apply singleReturn_of_narrow distinct_paired
  intro m used o declared field member other member'
  obtain rfl := List.mem_singleton.mp used
  obtain rfl := List.mem_singleton.mp declared
  change field ∈ singleModule.dependencies "both" at member
  change other ∈ singleModule.dependencies "both" at member'
  rw [dependencies_singleModule, List.mem_singleton] at member member'
  rw [member, member']

theorem loop_paired : TransGen paired.Leads ⟨"a", "u"⟩ ⟨"a", "u"⟩ := by
  have member : "u" ∈ singleModule.dependencies (bothOf "u").name.text :=
    dependencies_singleModule ▸ .head _
  have toB : paired.source ⟨"a", "u"⟩ = .linked ⟨"b", "out.both"⟩ .blank := rfl
  have toA : paired.source ⟨"b", "u"⟩ = .linked ⟨"a", "out.both"⟩ .blank := rfl
  have atB : ∃ i, paired.source ⟨"b", "out.both"⟩ = .computed i singleModule (bothOf "u") :=
    ⟨_, rfl⟩
  have atA : ∃ i, paired.source ⟨"a", "out.both"⟩ = .computed i singleModule (bothOf "u") :=
    ⟨_, rfl⟩
  obtain ⟨_, atB⟩ := atB
  obtain ⟨_, atA⟩ := atA
  rw [← waits_eq_leads distinct_paired]
  exact .tail (.tail (.tail (.single (.link toB)) (.dependency atB member)) (.link toA))
    (.dependency atA member)

theorem calm_paired {book : Pricebook} : ∀ m ∈ paired.modules, CalmExpression book m.formula ∧
    ∀ o ∈ m.outputs, CalmExpression book o.expression := by
  have calm : CalmExpression book "u" := @calm_of_name book "u" "u" (by decide +kernel)
  intro m used
  obtain rfl := List.mem_singleton.mp used
  exact ⟨calm, fun o declared => List.mem_singleton.mp declared ▸ calm⟩

theorem cycle_reason_iff_loop_paired :
    ∃ r, paired.resolveAll (.ofLists [] [] []) = .ok r ∧ r.IsCyclic ⟨"a", "u"⟩ := by
  obtain ⟨recalculated, run⟩ := exists_recalculate calm_paired distinct_paired
  obtain ⟨r, resolved, _⟩ := bind_eq_ok_iff.mp run
  obtain ⟨cycles, _⟩ :=
    cycle_reason_iff_loop paired _ distinct_paired (by decide +kernel) r resolved
  have reports : paired.Reports ⟨"a", "u"⟩ := ⟨_, .head _, rfl, by decide +kernel⟩
  exact ⟨r, resolved, (cycles.complete _ reports singleReturn_paired).mpr loop_paired⟩

/-! ## Cycles that meet -/

/-- Two fields, and an output that reads both. -/
def doubleModule : Module :=
  { singleModule with outputs := [bothOf "u + v"], distinct := by decide +kernel }

/-- The output of `a` leads back to itself through `u` and, longer, through `v`.  A link from
outside comes to it first. -/
def woven : Workspace :=
  ⟨[⟨"z", "m", .empty, .ofList [("u", ⟨"a", "out.both"⟩)], none⟩,
    ⟨"a", "m", .empty, .ofList [("u", ⟨"a", "out.both"⟩), ("v", ⟨"a", "u"⟩)], none⟩],
    [doubleModule]⟩

section
variable {book : Pricebook}

theorem distinct_woven : (woven.instances.map (·.id)).Nodup := by decide +kernel

theorem dependencies_doubleModule :
    doubleModule.dependencies (bothOf "u + v").name.text = ["u", "v"] :=
  (Module.dependencies_of_leaf (m := doubleModule) (i := ⟨0, by decide⟩) (by decide +kernel)).trans
    (by decide +kernel)

theorem source_woven_z : woven.source ⟨"z", "u"⟩ = .linked ⟨"a", "out.both"⟩ .blank := rfl

theorem source_woven_u : woven.source ⟨"a", "u"⟩ = .linked ⟨"a", "out.both"⟩ .blank := rfl

theorem source_woven_v : woven.source ⟨"a", "v"⟩ = .linked ⟨"a", "u"⟩ .blank := rfl

theorem source_woven_both :
    ∃ i, woven.source ⟨"a", "out.both"⟩ = .computed i doubleModule (bothOf "u + v") := ⟨_, rfl⟩

theorem loop_woven : TransGen woven.Leads ⟨"a", "v"⟩ ⟨"a", "v"⟩ := by
  obtain ⟨_, found⟩ := source_woven_both
  have member : "v" ∈ doubleModule.dependencies (bothOf "u + v").name.text :=
    dependencies_doubleModule ▸ .tail _ (.head _)
  rw [← waits_eq_leads distinct_woven]
  exact .tail (.tail (.single (.link source_woven_v)) (.link source_woven_u))
    (.dependency found member)

/-- The places that wait when the search comes to the fields of `a`. -/
def wovenWalk : List Place := [⟨"a", "out.both"⟩, ⟨"z", "u"⟩]

/-- What is known once `u` has met the output. -/
def wovenState : Resolution :=
  let met := (Resolution.start.meet (⟨"a", "u"⟩ :: wovenWalk) ⟨"a", "out.both"⟩).2
  (met.settleBroken ⟨"a", "u"⟩ ⟨"a", "out.both"⟩ .cycle .blank).2

theorem resolve_woven_u : woven.resolve book wovenWalk ⟨"a", "u"⟩ .start =
    .ok (.broken .cycle .blank, wovenState) := by
  rw [resolve_fresh rfl (by decide), source_woven_u]
  have met : woven.resolve book (⟨"a", "u"⟩ :: wovenWalk) ⟨"a", "out.both"⟩ .start =
      .ok (Resolution.start.meet (⟨"a", "u"⟩ :: wovenWalk) ⟨"a", "out.both"⟩) :=
    resolve_waiting rfl (by decide)
  exact bind_eq_ok_iff.mpr ⟨_, met, rfl⟩

theorem resolve_woven_v :
    woven.resolve book wovenWalk ⟨"a", "v"⟩ wovenState = .ok (.broken .upstreamBroken .blank,
      (wovenState.settleBroken ⟨"a", "v"⟩ ⟨"a", "u"⟩ .upstreamBroken .blank).2) := by
  rw [resolve_fresh rfl (by decide), source_woven_v]
  -- `u` has settled, and the search does not go around through it again
  have known : woven.resolve book (⟨"a", "v"⟩ :: wovenWalk) ⟨"a", "u"⟩ wovenState =
      .ok (.broken .cycle .blank, wovenState) := resolve_known rfl
  exact bind_eq_ok_iff.mpr ⟨_, known, rfl⟩

theorem settled_of_woven {value : FieldInput} {s : Resolution}
    (run : woven.resolve book [] ⟨"z", "u"⟩ .start = .ok (value, s)) :
    s.settled.get? ⟨"a", "v"⟩ = some (.broken .upstreamBroken .blank) := by
  rw [resolve_fresh rfl (by decide), source_woven_z] at run
  obtain ⟨⟨drawn, s'⟩, run, linked⟩ := bind_eq_ok_iff.mp run
  obtain ⟨_, found⟩ := source_woven_both
  rw [resolve_fresh rfl (by decide), found] at run
  obtain ⟨⟨inputs, middle⟩, gathered, rest⟩ := bind_eq_ok_iff.mp run
  obtain ⟨results, _, computed⟩ := bind_eq_ok_iff.mp rest
  rw [dependencies_doubleModule] at gathered
  obtain ⟨_, first, gathered⟩ := bind_eq_ok_iff.mp gathered
  obtain ⟨_, second, gathered⟩ := bind_eq_ok_iff.mp gathered
  cases resolve_woven_u.symm.trans first
  cases resolve_woven_v.symm.trans second
  cases gathered
  obtain ⟨rfl, rfl⟩ := Prod.ext_iff.mp (Except.ok.inj computed)
  obtain ⟨rfl, rfl⟩ := Prod.ext_iff.mp (Except.ok.inj linked)
  -- neither the output nor the link to it replaces the value of `v`
  rw [(closes_settleLinked ..).2.settles.get?_other (by decide),
    (closes_settleOutput ..).settles.get?_other (by decide)]
  rfl

theorem calm_woven : ∀ m ∈ woven.modules, CalmExpression (.ofLists [] [] []) m.formula ∧
    ∀ o ∈ m.outputs, CalmExpression (.ofLists [] [] []) o.expression := by
  have bodies : (Pricebook.ofLists [] [] []).AsksNoLoneExtremum := nofun
  have single : CalmExpression (.ofLists [] [] []) "u" := calm_of_asks bodies (by decide +kernel)
  have double : CalmExpression (.ofLists [] [] []) "u + v" :=
    calm_of_asks bodies (by decide +kernel)
  intro m used
  obtain rfl := List.mem_singleton.mp used
  exact ⟨single, fun o declared => List.mem_singleton.mp declared ▸ double⟩

end

/-- A field on a cycle may be reported as one that only leads to a cycle. -/
theorem loop_is_not_cyclic :
    (woven.instances.map (·.id)).Nodup ∧ (woven.modules.map (·.id)).Nodup ∧
    woven.Reports ⟨"a", "v"⟩ ∧ TransGen woven.Leads ⟨"a", "v"⟩ ⟨"a", "v"⟩ ∧
    ∃ r, woven.resolveAll (.ofLists [] [] []) = .ok r ∧
      r.value? ⟨"a", "v"⟩ = some (.broken .upstreamBroken .blank) := by
  have reports : woven.Reports ⟨"a", "v"⟩ := ⟨_, .tail _ (.head _), rfl, by decide +kernel⟩
  obtain ⟨recalculated, run⟩ := exists_recalculate calm_woven distinct_woven
  obtain ⟨r, resolved, _⟩ := bind_eq_ok_iff.mp run
  refine ⟨distinct_woven, by decide +kernel, reports, loop_woven, r, resolved, ?_⟩
  obtain ⟨s, ran, _⟩ := run_of_resolveAll distinct_woven resolved
  obtain ⟨_, shown, _⟩ := settled_of_run distinct_woven ran
  obtain ⟨value, reported, settled⟩ := shown _ reports
  -- the first field of the first instance settles `v`, and settled values stay
  obtain ⟨⟨fields, middle⟩, gathered, rest⟩ := bind_eq_ok_iff.mp ran
  have names : woven.fieldNames ⟨"z", "m", .empty, .ofList [("u", ⟨"a", "out.both"⟩)], none⟩ =
      ["u", "v"] := by decide +kernel
  rw [names] at gathered
  obtain ⟨⟨drawn, early⟩, first, others⟩ := bind_eq_ok_iff.mp gathered
  have after := after_resolve first .start .start
  have gathered := gathered_of_gather
    (fun _ _ _ _ ran _ coherent => after_resolve ran .start coherent) after.coherent others
  have further := settled_of_resolveInstances (List.nodup_cons.mp distinct_woven).2
    gathered.coherent rest
  have last := further.2.1.settled (gathered.grows.settled (settled_of_woven first))
  rw [last] at settled
  cases settled
  exact reported

end Workspace

end Costing

import Costing.Proofs.Link.Chain
import Costing.Proofs.Link.OutputLink
import Costing.Proofs.Link.Record
import Costing.Proofs.Link.Source

/-! # Resolved values agree with one another

`resolved_values_are_consistent` compares every value of a resolved workspace with the value behind
its link, whatever cycles there are, and the list of broken links with the values.

While a cycle is unwound, the search hands out a provisional value for a place that still waits.
No such value is left at the end: `Agrees` has no case for it, and `agrees_of_settled` holds of
every field that has settled. -/

namespace Costing

section
variable (w : Workspace)

/-- The value of a field agrees with what the field holds and with the place behind its link. -/
inductive Agrees (s : Resolution) (i : Instance) (name : String) : FieldInput → Prop where
  | stored (unlinked : i.links.get? name = none) :
      Agrees s i name (.given ((i.values.get? name).getD .blank))
  | severed {link : Place} {reason : BrokenReason} (links : i.links.get? name = some link)
      (source : (w.source ⟨i.id, name⟩).link? = some link)
      (missing : ∀ t, ¬w.HasTarget link t) :
      Agrees s i name (.broken reason ((i.values.get? name).getD .blank))
  | drawn {link : Place} {t : LinkTarget} {x : FieldValue}
      (links : i.links.get? name = some link) (target : w.HasTarget link t)
      (value : s.settled.get? link = some (.given x)) : Agrees s i name (.given x)
  | broken {link : Place} {t : LinkTarget} {reason upstream : BrokenReason}
      {fallback : FieldValue} (links : i.links.get? name = some link)
      (source : (w.source ⟨i.id, name⟩).link? = some link) (target : w.HasTarget link t)
      (value : s.settled.get? link = some (.broken upstream fallback)) :
      Agrees s i name (.broken reason ((i.values.get? name).getD .blank))

/-- How the values of a resolved workspace fit together, where `s` is all that the search has
found out. -/
structure Consistent (r : Workspace.Resolved) (s : Resolution) : Prop where
  settled : ∀ p, w.Reports p → ∃ value, r.value? p = some value ∧ s.settled.get? p = some value
  unreported : ∀ p, ¬w.Reports p → r.value? p = none
  /-- A field without a link has its own value. -/
  unlinked : ∀ i ∈ w.instances, ∀ name ∈ w.fieldNames i, i.links.get? name = none →
    r.value? ⟨i.id, name⟩ = some (.given ((i.values.get? name).getD .blank))
  /-- A field with a link has the value of the place behind it, if that has one. -/
  linked : ∀ i ∈ w.instances, ∀ name ∈ w.fieldNames i, ∀ link, i.links.get? name = some link →
    (∃ t, w.HasTarget link t) → ∃ value target,
      r.value? ⟨i.id, name⟩ = some value ∧ s.settled.get? link = some target ∧
      (value.isBroken = false ↔ target.isBroken = false) ∧
      (value.isBroken = false → value = target)
  severed : ∀ i ∈ w.instances, ∀ name ∈ w.fieldNames i, ∀ link, i.links.get? name = some link →
    (¬∃ t, w.HasTarget link t) → ∃ value, r.value? ⟨i.id, name⟩ = some value ∧
      value.isBroken = true
  /-- A broken field falls back on its own value, and its link is listed once. -/
  listed : ∀ i ∈ w.instances, ∀ name ∈ w.fieldNames i, ∀ reason fallback,
    r.value? ⟨i.id, name⟩ = some (.broken reason fallback) →
      fallback = (i.values.get? name).getD .blank ∧ ∃ link, i.links.get? name = some link ∧
        r.broken.filter (·.place = ⟨i.id, name⟩) = [⟨⟨i.id, name⟩, link, reason⟩]
  /-- Every link that is listed is that of a broken field. -/
  broken : ∀ b ∈ r.broken, w.Reports b.place ∧
    ∃ fallback, r.value? b.place = some (.broken b.reason fallback)

end

section
variable {w : Workspace} {book : Pricebook} {s : Resolution}

variable {i : Instance} {name : String} {value : FieldInput}

theorem Agrees.of_unlinked (agrees : Agrees w s i name value)
    (unlinked : i.links.get? name = none) :
    value = .given ((i.values.get? name).getD .blank) := by
  cases agrees with
  | stored => rfl
  | severed links => rw [unlinked] at links; cases links
  | drawn links => rw [unlinked] at links; cases links
  | broken links => rw [unlinked] at links; cases links

theorem Agrees.of_target (agrees : Agrees w s i name value) {link : Place} {t : LinkTarget}
    (links : i.links.get? name = some link) (target : w.HasTarget link t) :
    ∃ drawn, s.settled.get? link = some drawn ∧
      (value.isBroken = false ↔ drawn.isBroken = false) ∧
      (value.isBroken = false → value = drawn) := by
  cases agrees with
  | stored unlinked => rw [unlinked] at links; cases links
  | severed links' _ missing =>
    rw [links] at links'
    cases links'
    exact absurd target (missing t)
  | drawn links' _ value =>
    rw [links] at links'
    cases links'
    exact ⟨_, value, .rfl, fun _ => rfl⟩
  | broken links' _ _ value =>
    rw [links] at links'
    cases links'
    exact ⟨_, value, by simp [FieldInput.isBroken], nofun⟩

theorem Agrees.of_missing (agrees : Agrees w s i name value) {link : Place}
    (links : i.links.get? name = some link) (missing : ¬∃ t, w.HasTarget link t) :
    value.isBroken = true := by
  cases agrees with
  | stored unlinked => rw [unlinked] at links; cases links
  | severed => rfl
  | drawn links' target =>
    rw [links] at links'
    cases links'
    exact absurd ⟨_, target⟩ missing
  | broken => rfl

theorem Agrees.of_broken {reason : BrokenReason} {fallback : FieldValue}
    (agrees : Agrees w s i name (.broken reason fallback)) :
    fallback = (i.values.get? name).getD .blank ∧ ∃ link, i.links.get? name = some link ∧
      (w.source ⟨i.id, name⟩).link? = some link := by
  cases agrees with
  | severed links source => exact ⟨rfl, _, links, source⟩
  | broken links source => exact ⟨rfl, _, links, source⟩

/-- The place behind the link of a field that is on a cycle is on it, too. -/
theorem Coherent.marked_of_linked {walk : List Place} (coherent : Coherent w book walk s)
    {p link : Place} {own : FieldValue} (marked : p ∈ s.onCycle)
    (found : w.source p = .linked link own) : link ∈ s.onCycle := by
  obtain ⟨next, nextMarked, waits, _⟩ := coherent.onward p marked
  cases waits with
  | link other =>
    rw [found] at other
    cases other
    exact nextMarked
  | dependency other => rw [found] at other; cases other

variable (distinct : (w.instances.map (·.id)).Nodup)
include distinct

theorem agrees_of_settled (coherent : Coherent w book [] s) (placed : i ∈ w.instances)
    (plain : hasOutputPrefix name = false)
    (settled : s.settled.get? ⟨i.id, name⟩ = some value) : Agrees w s i name value := by
  have backed := coherent.backed settled
  have explains := w.explains_source distinct ⟨i.id, name⟩
  generalize found : w.source ⟨i.id, name⟩ = source at explains
  have itself : ∀ {j : Instance}, j ∈ w.instances → j.id = i.id → i = j := fun placed' id =>
    Table.eq_of_key distinct placed placed' id.symm
  cases explains with
  | stored placed' id _ unlinked =>
    obtain rfl := itself placed' id
    obtain rfl := backed.of_stored found
    exact .stored unlinked
  | severed placed' id _ links missing =>
    obtain rfl := itself placed' id
    obtain rfl := backed.of_severed found
    exact .severed links (by rw [found]; rfl) missing
  | @linked _ link _ placed' id _ links target =>
    obtain rfl := itself placed' id
    have source : (w.source ⟨i.id, name⟩).link? = some link := by rw [found]; rfl
    obtain ⟨marked, rfl⟩ | ⟨_, value', earlier, rfl⟩ := backed.of_linked found
    · -- the place behind the link is on the same cycle, and no provisional value is left there
      obtain ⟨reason, own, broken⟩ :=
        coherent.broken_of_marked (coherent.marked_of_linked marked found)
      exact .broken links source target broken
    · cases value' with
      | given x => exact .drawn links target earlier.settled
      | broken reason fallback => exact .broken links source target earlier.settled
  | @computed _ _ o _ _ _ _ key =>
    have isOutput := o.hasOutputPrefix_key
    rw [key, plain] at isOutput
    cases isOutput
  | nowhere absent => exact absurd rfl (absent plain i placed)

/-- A link that a source follows belongs to a field that is shown. -/
theorem reports_of_link {p link : Place} (links : (w.source p).link? = some link) :
    ∃ i ∈ w.instances, i.id = p.instanceId ∧ p.name ∈ w.fieldNames i ∧
      i.links.get? p.name = some link := by
  have explains := w.explains_source distinct p
  have shown {i : Instance} (plain : hasOutputPrefix p.name = false) {link : Place}
      (stored : i.links.get? p.name = some link) : p.name ∈ w.fieldNames i :=
    Workspace.mem_fieldNames.mpr
      ⟨.inr (.inl (Table.mem_keys_of_get? stored)), plain⟩
  generalize w.source p = source at explains links
  cases explains with
  | severed placed id plain stored =>
    cases links
    exact ⟨_, placed, id, shown plain stored, stored⟩
  | linked placed id plain stored =>
    cases links
    exact ⟨_, placed, id, shown plain stored, stored⟩
  | stored => cases links
  | computed => cases links
  | nowhere => cases links

theorem consistent_of_settled {r : Workspace.Resolved} (coherent : Coherent w book [] s)
    (noted : s.Noted w) (same : r.broken = s.broken)
    (shown : ∀ p, w.Reports p → ∃ value, r.value? p = some value ∧
      s.settled.get? p = some value) (unreported : ∀ p, ¬w.Reports p → r.value? p = none) :
    Consistent w r s := by
  have agrees {i : Instance} (placed : i ∈ w.instances) {name : String}
      (named : name ∈ w.fieldNames i) : ∃ value, r.value? ⟨i.id, name⟩ = some value ∧
        s.settled.get? ⟨i.id, name⟩ = some value ∧ Agrees w s i name value := by
    obtain ⟨value, reported, settled⟩ := shown ⟨i.id, name⟩ ⟨i, placed, rfl, named⟩
    exact ⟨value, reported, settled,
      agrees_of_settled distinct coherent placed (Workspace.mem_fieldNames.mp named).2 settled⟩
  refine ⟨shown, unreported, fun i placed name named unlinked => ?_,
    fun i placed name named link links ⟨t, target⟩ => ?_,
    fun i placed name named link links missing => ?_,
    fun i placed name named reason fallback broken => ?_, fun b among => ?_⟩
  · obtain ⟨value, reported, _, agrees⟩ := agrees placed named
    rw [reported, agrees.of_unlinked unlinked]
  · obtain ⟨value, reported, _, agrees⟩ := agrees placed named
    obtain ⟨drawn, settled, both, same⟩ := agrees.of_target links target
    exact ⟨value, drawn, reported, settled, both, same⟩
  · obtain ⟨value, reported, _, agrees⟩ := agrees placed named
    exact ⟨value, reported, agrees.of_missing links missing⟩
  · obtain ⟨_, reported, settled, agrees⟩ := agrees placed named
    rw [broken] at reported
    cases reported
    obtain ⟨own, link, links, source⟩ := agrees.of_broken
    rw [same]
    exact ⟨own, link, links, noted.filter_broken source settled⟩
  · obtain ⟨links, own, settled⟩ := noted.sound b (same ▸ among)
    obtain ⟨i, placed, id, named, _⟩ := reports_of_link distinct links
    have reports : w.Reports b.place := ⟨i, placed, id, named⟩
    obtain ⟨value, reported, settled'⟩ := shown _ reports
    rw [settled] at settled'
    cases settled'
    exact ⟨reports, own, reported⟩

theorem consistent_of_run {r : Workspace.Resolved}
    (run : w.resolveInstances book w.instances .empty .start = .ok (r.values, s))
    (same : r.broken = s.broken) : Consistent w r s := by
  obtain ⟨coherent, shown, unreported⟩ := settled_of_run distinct run
  have noted := Resolution.Noted.start.run (advances_of_resolveInstances .start run)
  exact consistent_of_settled distinct coherent noted same shown unreported

theorem exists_consistent {r : Workspace.Resolved} (run : w.resolveAll book = .ok r) :
    ∃ s, Consistent w r s := by
  obtain ⟨s, ran, same⟩ := run_of_resolveAll distinct run
  exact ⟨s, consistent_of_run distinct ran same⟩

/-- The list of broken links is given by the values of the linked fields. -/
theorem Consistent.mem_broken_iff {r : Workspace.Resolved} (consistent : Consistent w r s)
    {b : BrokenLink} : b ∈ r.broken ↔ w.Reports b.place ∧ w.LinksTo b.place b.link ∧
      ∃ own, r.value? b.place = some (.broken b.reason own) := by
  have listed {i : Instance} (placed : i ∈ w.instances) (id : i.id = b.place.instanceId)
      (named : b.place.name ∈ w.fieldNames i) {own : FieldValue}
      (value : r.value? b.place = some (.broken b.reason own)) :
      ∃ link, i.links.get? b.place.name = some link ∧
        r.broken.filter (·.place = b.place) = [⟨b.place, link, b.reason⟩] := by
    have here : b.place = ⟨i.id, b.place.name⟩ := by rw [id]
    obtain ⟨_, link, links, alone⟩ := consistent.listed i placed _ named _ own (here ▸ value)
    exact ⟨link, links, by rwa [here]⟩
  constructor
  · intro among
    obtain ⟨⟨i, placed, id, named⟩, own, value⟩ := consistent.broken b among
    obtain ⟨link, links, alone⟩ := listed placed id named value
    have found : b ∈ r.broken.filter (·.place = b.place) := List.mem_filter.mpr ⟨among, by simp⟩
    rw [alone, List.mem_singleton] at found
    have same : b.link = link := by rw [found]
    exact ⟨⟨i, placed, id, named⟩, ⟨i, placed, id, same ▸ links⟩, own, value⟩
  · rintro ⟨⟨i, placed, id, named⟩, ⟨j, placed', id', links'⟩, own, value⟩
    obtain ⟨link, links, alone⟩ := listed placed id named value
    obtain rfl := Table.eq_of_key distinct placed placed' (id.trans id'.symm)
    rw [links] at links'
    cases links'
    have found : b ∈ r.broken.filter (·.place = b.place) := alone ▸ .head _
    exact List.mem_of_mem_filter found

end

/-- The values of a resolved workspace agree with one another, and the list of broken links is
that of the broken fields. -/
theorem resolved_values_are_consistent (w : Workspace) (book : Pricebook)
    (distinct : (w.instances.map (·.id)).Nodup) (r : Workspace.Resolved)
    (run : w.resolveAll book = .ok r) :
    ∃ s, w.resolveInstances book w.instances .empty .start = .ok (r.values, s) ∧
      Consistent w r s := by
  obtain ⟨s, ran, same⟩ := run_of_resolveAll distinct run
  exact ⟨s, ran, consistent_of_run distinct ran same⟩

/-- Two sheets, each with its rate linked to the total of the other one. -/
def crossedSheets : Workspace :=
  { sheets with instances :=
      [⟨"a", "m", .ofList [("rate", .number 1)], .ofList [("rate", ⟨"b", "out.total"⟩)], none⟩,
        ⟨"b", "m", .ofList [("rate", .number 2)], .ofList [("rate", ⟨"a", "out.total"⟩)], none⟩] }

theorem resolved_values_are_consistent_crossed :
    ∃ r s, crossedSheets.resolveAll (.ofLists [] [] []) = .ok r ∧ Consistent crossedSheets r s := by
  have distinct : (crossedSheets.instances.map (·.id)).Nodup := by decide +kernel
  obtain ⟨recalculated, run⟩ := exists_recalculate (w := crossedSheets) calm_sheets distinct
  obtain ⟨r, resolved, _⟩ := bind_eq_ok_iff.mp run
  obtain ⟨s, _, consistent⟩ := resolved_values_are_consistent crossedSheets _ distinct r resolved
  exact ⟨r, s, resolved, consistent⟩

end Costing

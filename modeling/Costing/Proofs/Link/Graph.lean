import Costing.Proofs.Link.Chain
import Costing.Proofs.Link.Coherence
import Costing.Proofs.Link.Source

/-! # The graph of places

`Workspace.Leads` draws the graph that a resolution follows: from a linked field to the declared
place behind its link, and from an output to the fields that are found for its expression.  The
search looks up one source at a time and sees the same edges (`waits_iff_leads`).

What the graph alone decides about a resolution is settled here.  Without a cycle the places can be
taken in an order in which none comes before a place that it waits for (`Founded`).  And where one
can go around a cycle in one way only, a place on the cycle is found to be on it
(`Coherent.marked_of_loop`). -/

namespace Costing

open Relation (TransGen ReflTransGen)

namespace Workspace

/-- One place gets its value from another one.  A link that is stored under the key of an output
is not followed. -/
inductive Leads (w : Workspace) (p : Place) : Place → Prop where
  | link {i : Instance} {q : Place} {t : LinkTarget} (placed : i ∈ w.instances)
      (id : i.id = p.instanceId) (plain : hasOutputPrefix p.name = false)
      (links : i.links.get? p.name = some q) (target : w.HasTarget q t) : w.Leads p q
  | dependency {m : Module} {o : Output} {field : String} (uses : w.Uses p.instanceId m)
      (declared : o ∈ m.outputs) (key : o.key = p.name)
      (member : field ∈ m.dependencies o.name.text) : w.Leads p ⟨p.instanceId, field⟩

/-- The places can be resolved one behind the other, without meeting one that still waits. -/
def Founded (w : Workspace) : Prop := WellFounded fun q p => w.Waits p q

/-- From wherever one gets when going around from a place, one goes on around in one way only: no
output on the way has two fields that lead back. -/
def SingleReturn (w : Workspace) (p : Place) : Prop :=
  ∀ q r r', ReflTransGen w.Leads p q → w.Leads q r → w.Leads q r' → ReflTransGen w.Leads r p →
    ReflTransGen w.Leads r' p → r = r'

/-! ## Edges and sources -/

section
variable {w : Workspace} (distinct : (w.instances.map (·.id)).Nodup)
include distinct

theorem leads_of_waits {p q : Place} (waits : w.Waits p q) : w.Leads p q := by
  have explains := w.explains_source distinct p
  cases waits with
  | link found =>
    rw [found] at explains
    cases explains with
    | linked placed id plain links target => exact .link placed id plain links target
  | dependency found member =>
    rw [found] at explains
    cases explains with
    | computed placed id used declared key =>
      exact .dependency ⟨_, placed, id, used⟩ declared key member

theorem waits_of_leads {p q : Place} (leads : w.Leads p q) : w.Waits p q := by
  cases leads with
  | @link i _ t placed id plain links target =>
    -- whatever is found for `p`, it is found in `i`, and there the link is stored
    have explains := w.explains_source distinct p
    generalize found : w.source p = source at explains
    cases explains with
    | stored placed' id' _ unlinked =>
      obtain rfl := Table.eq_of_key distinct placed placed' (id.trans id'.symm)
      rw [unlinked] at links
      cases links
    | severed placed' id' _ links' missing =>
      obtain rfl := Table.eq_of_key distinct placed placed' (id.trans id'.symm)
      rw [links'] at links
      cases links
      exact absurd target (missing t)
    | linked placed' id' _ links' _ =>
      obtain rfl := Table.eq_of_key distinct placed placed' (id.trans id'.symm)
      rw [links'] at links
      cases links
      exact .link found
    | @computed _ _ o _ _ _ _ key =>
      -- the name of a field is not the key of an output
      have isOutput := o.hasOutputPrefix_key
      rw [key, plain] at isOutput
      cases isOutput
    | nowhere absent => exact absurd id (absent plain i placed)
  | dependency uses declared key member =>
    obtain ⟨i, placed, id, used⟩ := uses
    obtain ⟨_, _⟩ := p
    cases id
    cases key
    exact .dependency (source_of_output distinct placed used declared) member

theorem waits_iff_leads {p q : Place} : w.Waits p q ↔ w.Leads p q :=
  ⟨leads_of_waits distinct, waits_of_leads distinct⟩

theorem waits_eq_leads : w.Waits = w.Leads :=
  funext fun _ => funext fun _ => propext (waits_iff_leads distinct)

end

/-! ## Order -/

/-- Two sources are the same, up to the order of what the instance of an output stores. -/
inductive AlikeSources : Source → Source → Prop where
  | stored (own : FieldValue) : AlikeSources (.stored own) (.stored own)
  | severed (reason : BrokenReason) (link : Place) (own : FieldValue) :
      AlikeSources (.severed reason link own) (.severed reason link own)
  | linked (link : Place) (own : FieldValue) : AlikeSources (.linked link own) (.linked link own)
  | computed {i j : Instance} (m : Module) (o : Output) (same : SameStores i j) :
      AlikeSources (.computed i m o) (.computed j m o)
  | nowhere : AlikeSources .nowhere .nowhere

section
variable {w w' : Workspace} (alike : Alike w w') (instances : (w.instances.map (·.id)).Nodup)
  (instances' : (w'.instances.map (·.id)).Nodup)
include alike instances instances'

theorem Alike.instanceTable (id : String) :
    (w.instanceTable.get? id = none ∧ w'.instanceTable.get? id = none) ∨
      ∃ i j, w.instanceTable.get? id = some i ∧ w'.instanceTable.get? id = some j ∧
        SameStores i j := by
  cases found : w.instanceTable.get? id with
  | some i =>
    obtain ⟨placed, named⟩ := (get?_instanceTable_iff instances).mp found
    obtain ⟨j, placed', same⟩ := alike.there i placed
    exact .inr ⟨i, j, rfl, (get?_instanceTable_iff instances').mpr ⟨placed', same.id ▸ named⟩, same⟩
  | none =>
    refine .inl ⟨rfl, ?_⟩
    cases found' : w'.instanceTable.get? id with
    | none => rfl
    | some j =>
      obtain ⟨placed', named⟩ := (get?_instanceTable_iff instances').mp found'
      obtain ⟨i, placed, same⟩ := alike.back j placed'
      rw [(get?_instanceTable_iff instances).mpr ⟨placed, same.id ▸ named⟩] at found
      cases found

variable (modules : (w.modules.map (·.id)).Nodup) (modules' : (w'.modules.map (·.id)).Nodup)
include modules modules'

omit instances instances' in
theorem Alike.moduleTable (id : String) : w'.moduleTable.get? id = w.moduleTable.get? id := by
  apply Option.ext
  intro m
  rw [Workspace.moduleTable, Workspace.moduleTable, Table.get?_indexBy_iff modules',
    Table.get?_indexBy_iff modules, alike.modules m]

omit instances instances' in
theorem Alike.reports {p : Place} (reports : w.Reports p) : w'.Reports p := by
  obtain ⟨i, member, id, named⟩ := reports
  obtain ⟨j, member', same⟩ := alike.there i member
  obtain ⟨among, plain⟩ := mem_fieldNames.mp named
  refine ⟨j, member', same.id.symm.trans id, mem_fieldNames.mpr ⟨?_, plain⟩⟩
  obtain stored | linked | ⟨m, found, declared⟩ := among
  · exact .inl ((same.values.map Prod.fst).mem_iff.mp stored)
  · exact .inr (.inl ((same.links.map Prod.fst).mem_iff.mp linked))
  · rw [← alike.moduleTable modules modules', same.moduleId] at found
    exact .inr (.inr ⟨m, found, declared⟩)

theorem Alike.linkSource (link : Place) (own : FieldValue) :
    w'.linkSource link own = w.linkSource link own := by
  rw [Workspace.linkSource, Workspace.linkSource]
  obtain ⟨absent, absent'⟩ | ⟨i, j, found, found', same⟩ :=
    alike.instanceTable instances instances' link.instanceId
  · rw [absent, absent']
  · rw [found, found']
    dsimp only
    rw [alike.moduleTable modules modules', same.moduleId]

theorem Alike.source (p : Place) : AlikeSources (w.source p) (w'.source p) := by
  rw [Workspace.source, Workspace.source]
  obtain ⟨absent, absent'⟩ | ⟨i, j, found, found', same⟩ :=
    alike.instanceTable instances instances' p.instanceId
  · rw [absent, absent']
    exact .nowhere
  · rw [found, found']
    dsimp only
    split
    · rw [outputSource, outputSource, alike.moduleTable modules modules', same.moduleId]
      cases w.moduleTable.get? j.moduleId with
      | none => exact .nowhere
      | some m =>
        dsimp only
        cases m.output? p.name with
        | none => exact .nowhere
        | some o => exact .computed m o same
    · rw [fieldSource, fieldSource, same.get?_values, same.get?_links]
      cases j.links.get? p.name with
      | none => exact .stored _
      | some link =>
        dsimp only
        rw [alike.linkSource instances instances' modules modules']
        generalize (j.values.get? p.name).getD .blank = own
        obtain ⟨_, linked⟩ | ⟨_, reason, severed⟩ := linkSource_eq instances link own
        · rw [linked]
          exact .linked link own
        · rw [severed]
          exact .severed reason link own

theorem Alike.waits {p q : Place} (waits : w.Waits p q) : w'.Waits p q := by
  have sources := alike.source instances instances' modules modules' p
  cases waits with
  | link found =>
    rw [found] at sources
    generalize found' : w'.source p = source' at sources
    cases sources with
    | linked => exact .link found'
  | dependency found member =>
    rw [found] at sources
    generalize found' : w'.source p = source' at sources
    cases sources with
    | computed => exact .dependency found' member

theorem Alike.leads {p q : Place} (leads : w.Leads p q) : w'.Leads p q :=
  leads_of_waits instances'
    (alike.waits instances instances' modules modules' (waits_of_leads instances leads))

end

/-! ## Without a cycle -/

section
variable {w : Workspace} (loopless : ∀ p, ¬TransGen w.Waits p p)
include loopless

/-- The search behind a walk ends without meeting a place of the walk. -/
theorem acc_of_trail {walk : List Place} {p : Place} (trail : w.Trail walk p) :
    Acc (fun q p => w.Waits p q) p := by
  refine ⟨p, fun q waits => ?_⟩
  have fresh : p ∉ walk := fun member => loopless p (trail.reaches member)
  have waiting : (w.source p).isImmediate = false := by
    cases waits with
    | link found => rw [found]; rfl
    | dependency found => rw [found]; rfl
  exact acc_of_trail (.step waits trail)
termination_by (remaining w.waitingPlaces walk).length
decreasing_by exact length_remaining_lt (mem_waitingPlaces waiting) fresh (by simp)

theorem founded_of_loopless : w.Founded := ⟨fun _ => acc_of_trail loopless .start⟩

end

end Workspace

/-! ## Places on cycles -/

section
variable {w : Workspace} {book : Pricebook} {s : Resolution} (coherent : Coherent w book [] s)
include coherent

/-- What a place waits for has settled before the place, unless the place is on a cycle. -/
theorem Coherent.before_of_unmarked {p q : Place} {value : FieldInput}
    (settled : s.settled.get? p = some value) (unmarked : p ∉ s.onCycle) (waits : w.Waits p q) :
    s.settled.keys.idxOf q < s.settled.keys.idxOf p := by
  have backed := coherent.backed settled
  cases waits with
  | link found =>
    obtain ⟨marked, _⟩ | ⟨_, _, earlier, _⟩ := backed.of_linked found
    · exact absurd marked unmarked
    · exact earlier.before
  | dependency found member =>
    obtain ⟨_, _, drawn, _⟩ := backed.of_computed found unmarked
    obtain ⟨_, earlier, _⟩ := drawn _ member
    exact earlier.before

variable {p : Place} (distinct : (w.instances.map (·.id)).Nodup)
include distinct

/-- A walk passes a marked place, or it leads to a place that has settled before its first one. -/
theorem Coherent.marked_or_before {q : Place} {value : FieldInput}
    (settled : s.settled.get? p = some value) (path : TransGen w.Leads p q) :
    (∃ m ∈ s.onCycle, ReflTransGen w.Leads p m ∧ ReflTransGen w.Leads m q) ∨
      s.settled.keys.idxOf q < s.settled.keys.idxOf p := by
  -- along unmarked places the walk goes back in the order in which places have settled
  induction path with
  | single leads =>
    by_cases marked : p ∈ s.onCycle
    · exact .inl ⟨p, marked, .refl, .single leads⟩
    · have waits := Workspace.waits_of_leads distinct leads
      exact .inr (coherent.before_of_unmarked settled marked waits)
  | @tail r q before leads ih =>
    obtain ⟨m, marked, out, onward⟩ | earlier := ih
    · exact .inl ⟨m, marked, out, onward.tail leads⟩
    · by_cases marked : r ∈ s.onCycle
      · exact .inl ⟨r, marked, before.to_reflTransGen, .single leads⟩
      · have waits := Workspace.waits_of_leads distinct leads
        obtain ⟨_, settled'⟩ := Resolution.exists_settled earlier
        exact .inr ((coherent.before_of_unmarked settled' marked waits).trans earlier)

/-- No cycle goes unnoticed: a place on it is marked. -/
theorem Coherent.exists_marked_of_loop {value : FieldInput}
    (settled : s.settled.get? p = some value) (loop : TransGen w.Leads p p) :
    ∃ m ∈ s.onCycle, ReflTransGen w.Leads p m ∧ ReflTransGen w.Leads m p :=
  (coherent.marked_or_before distinct settled loop).resolve_right (lt_irrefl _)

variable (single : w.SingleReturn p)
include single

/-- On the way around, a mark passes on from each place to the next one. -/
theorem Coherent.marked_onward {m q : Place} (marked : m ∈ s.onCycle)
    (out : ReflTransGen w.Leads p m) (path : ReflTransGen w.Leads m q)
    (back : ReflTransGen w.Leads q p) : q ∈ s.onCycle := by
  induction path with
  | refl => exact marked
  | @tail r q before leads ih =>
    obtain ⟨next, nextMarked, step, around⟩ := coherent.onward r (ih (.head leads back))
    rw [Workspace.waits_eq_leads distinct] at step around
    -- both `q` and the marked place behind `r` lead back, and there is one such place only
    have same : q = next := single r q next (out.trans before) leads step back
      (around.trans (.head leads back))
    exact same ▸ nextMarked

theorem Coherent.marked_of_loop {value : FieldInput} (settled : s.settled.get? p = some value)
    (loop : TransGen w.Leads p p) : p ∈ s.onCycle := by
  obtain ⟨m, marked, out, back⟩ := coherent.exists_marked_of_loop distinct settled loop
  exact coherent.marked_onward distinct single marked out back .refl

end

end Costing

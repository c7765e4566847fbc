import Costing.Proofs.CycleSearch
import Costing.Proofs.Link.Consistency
import Costing.Proofs.Link.Graph
import Costing.Proofs.Link.Totality
import Mathlib.Data.List.Nodup
import Mathlib.Order.WellFounded

/-! # Resolution as plain recursion

In a workspace without cycles the value of a place can be defined by recursion along its links and
dependencies: `plainValue` remembers nothing, and it has no walk and no marks.  The search settles
each place with that value, in whatever order it comes to the places (`plainValue_of_settled`); so
the order of the workspace does not matter (`resolution_is_plain_recursion`).

Conversely the search ends wherever the plain recursion does (`exists_resolve_of_plainValue`).
This is needed for a workspace in another order, of which it is not known beforehand that its
resolution ends at all: which outputs are computed first may differ. -/

namespace Costing

open Relation (TransGen)

namespace Workspace

/-- The value of a place by recursion along the links and dependencies. -/
def plainValue (w : Workspace) (book : Pricebook) (founded : w.Founded) (p : Place) :
    Except Formula.Crash FieldInput :=
  match _found : w.source p with
  | .stored own => .ok (.given own)
  | .severed reason _ own => .ok (.broken reason own)
  | .nowhere => .ok (.broken .missingTarget .blank)
  | .linked link own => do
    let value ← w.plainValue book founded link
    pure (linkedInput link own value)
  | .computed i m o => do
    -- the values of the fields on which the output depends replace the stored ones
    let drawn ← (m.dependencies o.name.text).attach.mapM fun ⟨field, _member⟩ => do
      let value ← w.plainValue book founded ⟨p.instanceId, field⟩
      pure (field, value)
    let results ← m.computeOutputs book (i.storedInputs.insertAll drawn)
    pure (outputInput ((outputValues results).get? o.key))
termination_by founded.wrap p
decreasing_by
  · exact .link _found
  · exact .dependency _found _member

/-- Stored inputs in which the values of some fields are replaced. -/
structure Overlays (value : String → FieldInput → Prop) (fields : List String)
    (stored inputs : Table String FieldInput) : Prop where
  drawn : ∀ field ∈ fields, ∃ v, value field v ∧ inputs.get? field = some v
  kept : ∀ field, field ∉ fields → inputs.get? field = stored.get? field

section
variable {value : String → FieldInput → Prop} {fields : List String}
  {stored stored' inputs inputs' : Table String FieldInput}

theorem Overlays.get?_eq (first : Overlays value fields stored inputs)
    (second : Overlays value fields stored' inputs')
    (unique : ∀ {field v v'}, value field v → value field v' → v = v')
    (same : ∀ field, stored.get? field = stored'.get? field) (field : String) :
    inputs.get? field = inputs'.get? field := by
  by_cases member : field ∈ fields
  · obtain ⟨v, here, found⟩ := first.drawn field member
    obtain ⟨v', here', found'⟩ := second.drawn field member
    rw [found, found', unique here here']
  · rw [first.kept field member, second.kept field member, same]

theorem overlays_of_mapM {answer : String → Except Formula.Crash FieldInput}
    {drawn : List (String × FieldInput)}
    (run : (fields.mapM fun field => do
      let v ← answer field
      pure (field, v)) = .ok drawn) :
    Overlays (fun field v => answer field = .ok v) fields stored (stored.insertAll drawn) := by
  induction fields generalizing stored drawn with
  | nil =>
    cases run
    exact ⟨nofun, fun _ _ => rfl⟩
  | cons field fields ih =>
    simp only [List.mapM_cons, bind_eq_ok_iff] at run
    obtain ⟨_, ⟨v, first, ⟨⟩⟩, rest, others, ⟨⟩⟩ := run
    have further := @ih (stored.insert field v) _ others
    refine ⟨fun name member => ?_, fun name absent => ?_⟩
    · by_cases later : name ∈ fields
      · exact further.drawn name later
      · obtain rfl := (List.mem_cons.mp member).resolve_right later
        refine ⟨v, first, (further.kept name later).trans ?_⟩
        rw [Table.get?_insert, if_pos rfl]
    · -- a name that does not come at all has its stored value
      rw [List.mem_cons, not_or] at absent
      refine (further.kept name absent.2).trans ?_
      rw [Table.get?_insert, if_neg (Ne.symm absent.1)]

end

section
variable {w : Workspace} {book : Pricebook} {founded : w.Founded} {p : Place}
  {value : FieldInput}

theorem plainValue_eq : w.plainValue book founded p =
    match w.source p with
    | .stored own => .ok (.given own)
    | .severed reason _ own => .ok (.broken reason own)
    | .nowhere => .ok (.broken .missingTarget .blank)
    | .linked link own => (do
      let value ← w.plainValue book founded link
      pure (linkedInput link own value))
    | .computed i m o => (do
      let drawn ← (m.dependencies o.name.text).mapM fun field => do
        let value ← w.plainValue book founded ⟨p.instanceId, field⟩
        pure (field, value)
      let results ← m.computeOutputs book (i.storedInputs.insertAll drawn)
      pure (outputInput ((outputValues results).get? o.key))) := by
  rw [plainValue]
  split <;> rename_i found <;> rw [found]
  simp only [List.mapM_subtype, List.unattach_attach]

theorem plainValue_linked_iff {link : Place} {own : FieldValue}
    (found : w.source p = .linked link own) :
    w.plainValue book founded p = .ok value ↔
      ∃ target, w.plainValue book founded link = .ok target ∧
        linkedInput link own target = value := by
  rw [plainValue_eq, found]
  simp only [bind_eq_ok_iff, pure, Except.pure, Except.ok.injEq]

/-- The inputs of an output, with plain values for the fields on which it depends. -/
abbrev PlainInputs (w : Workspace) (book : Pricebook) (founded : w.Founded) (id : String) :
    List String → Table String FieldInput → Table String FieldInput → Prop :=
  Overlays fun field v => w.plainValue book founded ⟨id, field⟩ = .ok v

theorem PlainInputs.computeOutputs_eq {id : String} {fields : List String}
    {stored stored' inputs inputs' : Table String FieldInput}
    (first : w.PlainInputs book founded id fields stored inputs)
    (second : w.PlainInputs book founded id fields stored' inputs')
    (same : ∀ field, stored.get? field = stored'.get? field) (m : Module) :
    m.computeOutputs book inputs = m.computeOutputs book inputs' :=
  Module.computeOutputs_congr
    (first.get?_eq second (fun here there => Except.ok.inj (here.symm.trans there)) same)

theorem plainValue_computed_iff {i : Instance} {m : Module} {o : Output}
    (found : w.source p = .computed i m o) :
    w.plainValue book founded p = .ok value ↔ ∃ inputs results,
      w.PlainInputs book founded p.instanceId (m.dependencies o.name.text) i.storedInputs inputs ∧
      m.computeOutputs book inputs = .ok results ∧
      outputInput ((outputValues results).get? o.key) = value := by
  rw [plainValue_eq, found]
  constructor
  · intro run
    obtain ⟨drawn, each, rest⟩ := bind_eq_ok_iff.mp run
    obtain ⟨results, computed, same⟩ := bind_eq_ok_iff.mp rest
    exact ⟨_, results, overlays_of_mapM each, computed, Except.ok.inj same⟩
  · rintro ⟨inputs, results, overlays, computed, rfl⟩
    obtain ⟨drawn, each⟩ : ∃ drawn, ((m.dependencies o.name.text).mapM fun field => do
        let value ← w.plainValue book founded ⟨p.instanceId, field⟩
        pure (field, value)) = .ok drawn := by
      refine exists_mapM fun field member => ?_
      obtain ⟨v, plain, _⟩ := overlays.drawn field member
      exact ⟨_, bind_eq_ok_iff.mpr ⟨v, plain, rfl⟩⟩
    rw [PlainInputs.computeOutputs_eq overlays (overlays_of_mapM each) fun _ => rfl] at computed
    exact bind_eq_ok_iff.mpr ⟨drawn, each, bind_eq_ok_iff.mpr ⟨results, computed, rfl⟩⟩

end

/-! ## The search settles plain values -/

section
variable {w : Workspace} (founded : w.Founded)
include founded

theorem Founded.loopless (p : Place) : ¬TransGen w.Waits p p := by
  have irreflexive := (WellFounded.transGen founded).irrefl
  exact fun loop => irreflexive.irrefl p (Relation.transGen_swap.mpr loop)

variable {book : Pricebook} {walk : List Place} {s : Resolution} {p : Place} {value : FieldInput}

/-- Nothing is marked where there is no cycle. -/
theorem Founded.unmarked (coherent : Coherent w book walk s) (q : Place) : q ∉ s.onCycle :=
  fun marked => founded.loopless q (coherent.loops q marked)

theorem plainValue_of_settled (coherent : Coherent w book walk s)
    (settled : s.settled.get? p = some value) : w.plainValue book founded p = .ok value := by
  have unmarked := founded.unmarked coherent
  -- what a place waits for has settled as well
  induction p using founded.induction generalizing value with
  | h p ih =>
    have gives := (coherent.backed settled).gives
    cases found : w.source p with
    | stored own => rw [found] at gives; rw [plainValue_eq, found, gives]
    | severed reason link own => rw [found] at gives; rw [plainValue_eq, found, gives]
    | nowhere => rw [found] at gives; rw [plainValue_eq, found, gives]
    | linked link own =>
      -- a broken cycle would have left a mark, so the value is that of the target
      rw [found] at gives
      obtain ⟨_, target, earlier, rfl⟩ := gives.resolve_left fun here => unmarked p here.1
      exact (plainValue_linked_iff found).mpr ⟨target, ih link (.link found) earlier.settled, rfl⟩
    | computed i m o =>
      rw [found] at gives
      obtain ⟨inputs, results, drawn, kept, computed, rfl⟩ := gives.resolve_left (unmarked p)
      refine (plainValue_computed_iff found).mpr
        ⟨inputs, results, ⟨fun field member => ?_, kept⟩, computed, rfl⟩
      obtain ⟨v, earlier, input⟩ := drawn field member
      exact ⟨v, ih _ (.dependency found member) earlier.settled, input⟩

theorem plainInputs_of_gathered {id : String} {fields : List String}
    {stored inputs : Table String FieldInput} {s' : Resolution}
    (gathered : Gathered w book walk (Place.mk id) fields stored inputs s s') :
    w.PlainInputs book founded id fields stored inputs := by
  refine ⟨fun field member => ?_, gathered.kept⟩
  obtain ⟨v, input, settled | ⟨first, _, marked⟩⟩ := gathered.answered field member
  · exact ⟨v, plainValue_of_settled founded gathered.coherent settled, input⟩
  · exact absurd marked (founded.unmarked gathered.coherent first)

theorem exists_resolve_of_plainValue (trail : w.Trail walk p) (coherent : Coherent w book walk s)
    (plain : w.plainValue book founded p = .ok value) :
    ∃ v s', w.resolve book walk p s = .ok (v, s') := by
  fun_induction Workspace.resolve w book walk p s generalizing value with
  | case6 walk p s unsettled _ link own found ih =>
    obtain ⟨target, drawn, _⟩ := (plainValue_linked_iff found).mp plain
    obtain ⟨v, s', ran⟩ := ih (.step (.link found) trail) (coherent.push unsettled) drawn
    exact ⟨_, _, bind_eq_ok_iff.mpr ⟨_, ran, rfl⟩⟩
  | case7 walk p s unsettled _ i m o found ih =>
    obtain ⟨inputs, results, overlays, computed, _⟩ := (plainValue_computed_iff found).mp plain
    have after : ∀ field s v s', w.resolve book (p :: walk) ⟨p.instanceId, field⟩ s = .ok (v, s') →
        field ∈ m.dependencies o.name.text → Coherent w book (p :: walk) s →
        After w book (p :: walk) ⟨p.instanceId, field⟩ v s s' := fun field s v s' ran member =>
      after_resolve ran (.step (.dependency found member) trail)
    have each : ∀ field ∈ m.dependencies o.name.text, Proceeds (Coherent w book (p :: walk))
        (w.resolve book (p :: walk) ⟨p.instanceId, field⟩) := by
      intro field member s coherent
      obtain ⟨v, plain, _⟩ := overlays.drawn field member
      obtain ⟨v, s', ran⟩ := ih field s (.step (.dependency found member) trail) coherent plain
      exact ⟨v, s', ran, (after field s v s' ran member coherent).coherent⟩
    have pushed := coherent.push unsettled
    obtain ⟨inputs', s', run, _⟩ := exists_gather each i.storedInputs pushed
    -- the search hands the same inputs to the outputs as the plain recursion
    have overlays' := plainInputs_of_gathered founded (gathered_of_gather after pushed run)
    rw [PlainInputs.computeOutputs_eq overlays overlays' fun _ => rfl] at computed
    exact ⟨_, _, bind_eq_ok_iff.mpr ⟨_, run, bind_eq_ok_iff.mpr ⟨results, computed, rfl⟩⟩⟩
  | _ => exact ⟨_, _, rfl⟩

end

/-! ## Order -/

section
variable {w w' : Workspace} (alike : Alike w w') (instances : (w.instances.map (·.id)).Nodup)
  (instances' : (w'.instances.map (·.id)).Nodup) (modules : (w.modules.map (·.id)).Nodup)
  (modules' : (w'.modules.map (·.id)).Nodup)
include alike instances instances' modules modules'

theorem Founded.of_alike (founded : w.Founded) : w'.Founded :=
  Subrelation.wf (fun waits => alike.symm.waits instances' instances modules' modules waits) founded

theorem Alike.plainValue {book : Pricebook} (founded : w.Founded) (founded' : w'.Founded)
    {p : Place} {value : FieldInput} (plain : w.plainValue book founded p = .ok value) :
    w'.plainValue book founded' p = .ok value := by
  induction p using founded.induction generalizing value with
  | h p ih =>
    have sources := alike.source instances instances' modules modules' p
    generalize found : w.source p = source at sources
    generalize found' : w'.source p = source' at sources
    cases sources with
    | stored own => rw [plainValue_eq, found] at plain; rwa [plainValue_eq, found']
    | severed reason link own => rw [plainValue_eq, found] at plain; rwa [plainValue_eq, found']
    | nowhere => rw [plainValue_eq, found] at plain; rwa [plainValue_eq, found']
    | linked link own =>
      obtain ⟨target, drawn, rfl⟩ := (plainValue_linked_iff found).mp plain
      exact (plainValue_linked_iff found').mpr ⟨target, ih link (.link found) drawn, rfl⟩
    | @computed i j m o same =>
      obtain ⟨inputs, results, overlays, computed, rfl⟩ := (plainValue_computed_iff found).mp plain
      refine (plainValue_computed_iff found').mpr
        ⟨inputs, results, ⟨fun field member => ?_, fun field absent => ?_⟩, computed, rfl⟩
      · obtain ⟨v, plain, input⟩ := overlays.drawn field member
        exact ⟨v, ih _ (.dependency found member) plain, input⟩
      · rw [overlays.kept field absent, Instance.storedInputs, Instance.storedInputs,
          Table.get?_mapValues, Table.get?_mapValues, same.get?_values]

/-- Two resolutions with the same values list the same broken links. -/
theorem Alike.perm_broken {r r' : Resolved} {s s' : Resolution} (consistent : Consistent w r s)
    (consistent' : Consistent w' r' s') (single : r.broken.Nodup) (single' : r'.broken.Nodup)
    (same : ∀ p, r'.value? p = r.value? p) : r'.broken.Perm r.broken := by
  refine (List.perm_ext_iff_of_nodup single' single).mpr fun b => ?_
  rw [consistent'.mem_broken_iff instances', consistent.mem_broken_iff instances, same]
  constructor
  · rintro ⟨reports, links, broken⟩
    exact ⟨alike.symm.reports modules' modules reports, alike.symm.linksTo links, broken⟩
  · rintro ⟨reports, links, broken⟩
    exact ⟨alike.reports modules modules' reports, alike.linksTo links, broken⟩

end

/-! ## The resolution of a whole workspace -/

/-- The values and the broken links of a resolution are those of the plain recursion. -/
structure Plainly (w : Workspace) (book : Pricebook) (founded : w.Founded) (r : Resolved)
    (s : Resolution) : Prop where
  run : w.resolveInstances book w.instances .empty .start = .ok (r.values, s)
  settled : ∀ p value, s.settled.get? p = some value → w.plainValue book founded p = .ok value
  reported : ∀ p, w.Reports p → ∃ value, r.value? p = some value ∧
    w.plainValue book founded p = .ok value
  unreported : ∀ p, ¬w.Reports p → r.value? p = none
  /-- The broken links are those of the fields that are broken by plain recursion. -/
  broken : ∀ b, b ∈ r.broken ↔ w.Reports b.place ∧ w.LinksTo b.place b.link ∧
    ∃ own, w.plainValue book founded b.place = .ok (.broken b.reason own)
  single : r.broken.Nodup

section
variable {w : Workspace} {book : Pricebook} {r : Resolved}

theorem plainly_of_resolveAll (founded : w.Founded) (instances : (w.instances.map (·.id)).Nodup)
    (run : w.resolveAll book = .ok r) : ∃ s, w.Plainly book founded r s ∧ Consistent w r s := by
  obtain ⟨s, ran, same⟩ := run_of_resolveAll instances run
  obtain ⟨coherent, shown, unreported⟩ := settled_of_run instances ran
  have noted := Resolution.Noted.start.run (advances_of_resolveInstances .start ran)
  have consistent := consistent_of_settled instances coherent noted same shown unreported
  have plain {p : Place} (reports : w.Reports p) : ∃ value, r.value? p = some value ∧
      w.plainValue book founded p = .ok value := by
    obtain ⟨value, reported, settled⟩ := shown p reports
    exact ⟨value, reported, plainValue_of_settled founded coherent settled⟩
  refine ⟨s, ⟨ran, fun p value => plainValue_of_settled founded coherent, fun p => plain,
    unreported, fun b => ?_, same ▸ List.Nodup.of_map _ noted.single⟩, consistent⟩
  rw [consistent.mem_broken_iff instances]
  refine and_congr_right fun reports => and_congr_right fun _ => exists_congr fun own => ?_
  obtain ⟨value, reported, plain⟩ := plain reports
  rw [reported, plain, Option.some.injEq, Except.ok.injEq]

theorem Plainly.value?_of_alike {w' : Workspace} {founded' : w'.Founded} {founded : w.Founded}
    {r' : Resolved} {s s' : Resolution} (plainly : w.Plainly book founded r s)
    (plainly' : w'.Plainly book founded' r' s')
    (reports : ∀ {p}, w'.Reports p ↔ w.Reports p)
    (same : ∀ {p value}, w.plainValue book founded p = .ok value →
      w'.plainValue book founded' p = .ok value) (p : Place) : r'.value? p = r.value? p := by
  by_cases shown : w.Reports p
  · obtain ⟨value, found, plain⟩ := plainly.reported p shown
    obtain ⟨value', found', plain'⟩ := plainly'.reported p (reports.mpr shown)
    rw [same plain] at plain'
    rw [found, found', Except.ok.inj plain']
  · rw [plainly.unreported p shown, plainly'.unreported p (mt reports.mp shown)]

end

/-- In a workspace without cycles every place that a resolution settles has the value of the
plain recursion, and no order of the workspace matters. -/
theorem resolution_is_plain_recursion (w : Workspace) (book : Pricebook)
    (instances : (w.instances.map (·.id)).Nodup) (modules : (w.modules.map (·.id)).Nodup)
    (loopless : ∀ p, ¬TransGen w.Leads p p) (r : Resolved) (run : w.resolveAll book = .ok r) :
    ∃ founded : w.Founded, (∃ s, w.Plainly book founded r s) ∧
      ∀ w', Rearranged w w' → ∃ r', w'.resolveAll book = .ok r' ∧
        (∀ p, r'.value? p = r.value? p) ∧ r'.broken.Perm r.broken := by
  have founded : w.Founded := founded_of_loopless (waits_eq_leads instances ▸ loopless)
  obtain ⟨s, plainly, consistent⟩ := plainly_of_resolveAll founded instances run
  refine ⟨founded, ⟨s, plainly⟩, fun w' rearranged => ?_⟩
  have alike := rearranged.alike
  have instances' := rearranged.ids.nodup_iff.mp instances
  have modules' := (rearranged.modules.map (·.id)).nodup_iff.mp modules
  have founded' := Founded.of_alike alike instances instances' modules modules' founded
  have reports {p : Place} : w'.Reports p ↔ w.Reports p :=
    ⟨alike.symm.reports modules' modules, alike.reports modules modules'⟩
  have plain {p : Place} {value : FieldInput} (here : w.plainValue book founded p = .ok value) :
      w'.plainValue book founded' p = .ok value :=
    alike.plainValue instances instances' modules modules' founded founded' here
  -- the plain recursion ends for each place of `w`, and so the search of `w'` ends for it
  obtain ⟨r', run'⟩ : ∃ r', w'.resolveAll book = .ok r' := by
    refine exists_resolveAll (Coherent w' book []) instances' (fun p shown s coherent => ?_) .start
    obtain ⟨value, _, here⟩ := plainly.reported p (reports.mp shown)
    obtain ⟨v, s', ran⟩ := exists_resolve_of_plainValue founded' .start coherent (plain here)
    exact ⟨v, s', ran, (after_resolve ran .start coherent).coherent⟩
  obtain ⟨s', plainly', consistent'⟩ := plainly_of_resolveAll founded' instances' run'
  have same := plainly.value?_of_alike plainly' reports plain
  exact ⟨r', run', same, alike.perm_broken instances instances' modules modules' consistent
    consistent' plainly.single plainly'.single same⟩

/-! From field to output to field, the sheets lead downwards. -/

def sheetRank (p : Place) : Nat :=
  (if p.instanceId = "a" then 2 else 0) + if hasOutputPrefix p.name then 1 else 0

theorem sheetRank_of_leads {p q : Place} (leads : sheets.Leads p q) :
    sheetRank q < sheetRank p := by
  cases leads with
  | link placed id plain links =>
    simp only [sheets, List.mem_cons, List.not_mem_nil, or_false] at placed
    obtain rfl | rfl := placed
    · obtain ⟨_, rfl⟩ : p.name = "rate" ∧ q = ⟨"b", "out.total"⟩ := by
        simpa [Table.get?_ofList, eq_comm] using links
      have target : sheetRank ⟨"b", "out.total"⟩ = 1 := by decide +kernel
      have itself : sheetRank p = 2 := by simp [sheetRank, ← id, plain]
      exact target ▸ itself ▸ Nat.lt_succ_self 1
    · cases links
  | @dependency _ o _ uses declared key member =>
    -- from an output to a field of the same instance
    obtain ⟨f, _, rfl⟩ := Module.exists_field_of_dependency declared member
    have isOutput := o.hasOutputPrefix_key
    rw [key] at isOutput
    simp [sheetRank, isOutput, hasOutputPrefix_of_plain f.name.plain]

theorem loopless_sheets (p : Place) : ¬TransGen sheets.Leads p p := by
  apply not_transGen_of_rank
  exact fun _ _ => sheetRank_of_leads

/-- A sheet whose rate is linked to the output of another one, in both orders. -/
theorem resolution_is_plain_recursion_of_sheets :
    ∃ r r', sheets.resolveAll (.ofLists [] [] []) = .ok r ∧
      Workspace.resolveAll ⟨sheets.instances.reverse, sheets.modules⟩ (.ofLists [] [] []) = .ok r' ∧
      (∀ p, r'.value? p = r.value? p) ∧ r'.broken.Perm r.broken := by
  obtain ⟨recalculated, run⟩ := exists_recalculate calm_sheets orderly_sheets.instances
  obtain ⟨r, resolved, _⟩ := bind_eq_ok_iff.mp run
  obtain ⟨_, _, orders⟩ := resolution_is_plain_recursion sheets _ orderly_sheets.instances
    orderly_sheets.modules loopless_sheets r resolved
  have same : sheets.instances.reverse.Forall₂ SameStores sheets.instances.reverse :=
    List.forall₂_same.mpr fun i _ => ⟨rfl, rfl, .refl _, .refl _⟩
  obtain ⟨r', resolved', values, broken⟩ :=
    orders ⟨_, _⟩ ⟨⟨_, (List.reverse_perm _).symm, same⟩, .refl _⟩
  exact ⟨r, r', resolved, resolved', values, broken⟩

end Workspace

end Costing

import Costing.Link.Status
import Costing.Proofs.Link.Graph
import Costing.Proofs.Link.Totality

/-! # Resolution follows chains to their end

In a workspace whose links lead to fields only, the value that a resolution settles for a field
is the end of its chain of links.

`reads_source` turns the source of a field into statements about its link.  Chains do not branch,
so the marked fields are exactly those whose chain returns to them (`marked_iff_loop`), and
`ends_of_settled` follows by induction on the order in which places settle. -/

namespace Costing

open Relation (TransGen ReflTransGen)

namespace Workspace

/-- A field of an instance, declared or not. -/
structure IsField (w : Workspace) (p : Place) : Prop where
  present : w.HasInstance p.instanceId
  plain : hasOutputPrefix p.name = false

/-- Identifiers are distinct, and no link leads to an output. -/
structure LinksFields (w : Workspace) : Prop where
  instances : (w.instances.map (·.id)).Nodup
  modules : (w.modules.map (·.id)).Nodup
  plain : ∀ i ∈ w.instances, ∀ field link, i.links.get? field = some link →
    hasOutputPrefix link.name = false

/-- What the source of a field says about its link. -/
inductive Reads (w : Workspace) (p : Place) : Source → Prop where
  | stored {own : FieldValue} (unlinked : w.IsUnlinked p) (holds : w.Holds p own) :
      Reads w p (.stored own)
  | severed {reason : BrokenReason} {link : Place} {own : FieldValue}
      (severed : w.Severed p reason) (holds : w.Holds p own) :
      Reads w p (.severed reason link own)
  | linked {link : Place} {own : FieldValue} (draws : w.Draws p link) (holds : w.Holds p own) :
      Reads w p (.linked link own)

variable {w : Workspace}

section
variable (fields : w.LinksFields)
include fields

theorem get?_instanceTable {id : String} {i : Instance} :
    w.instanceTable.get? id = some i ↔ i ∈ w.instances ∧ i.id = id :=
  Table.get?_indexBy_iff fields.instances

theorem get?_moduleTable {id : String} {m : Module} :
    w.moduleTable.get? id = some m ↔ m ∈ w.modules ∧ m.id = id :=
  Table.get?_indexBy_iff fields.modules

theorem hasInstance_iff {id : String} :
    w.HasInstance id ↔ ∃ i, w.instanceTable.get? id = some i := by
  simp only [get?_instanceTable fields]
  rfl

theorem declares_iff {q : Place} (plain : hasOutputPrefix q.name = false) {i : Instance}
    (found : w.instanceTable.get? q.instanceId = some i) :
    w.Declares q ↔ ∃ t, (w.moduleTable.get? i.moduleId).bind (·.target? q.name) = some t := by
  obtain ⟨member, id⟩ := (get?_instanceTable fields).mp found
  constructor
  · rintro ⟨j, member', id', m, inModules, moduleId, f, inFields, name⟩
    obtain rfl := Table.eq_of_key fields.instances member member' (id.trans id'.symm)
    have here := (get?_moduleTable fields).mpr ⟨inModules, moduleId⟩
    have declared : (m.field? q.name).isSome = true :=
      List.find?_isSome.mpr ⟨f, inFields, by simpa using name⟩
    obtain ⟨g, field⟩ := Option.isSome_iff_exists.mp declared
    exact ⟨.field g, by simp [here, Module.target?, plain, field]⟩
  · rintro ⟨t, target⟩
    obtain ⟨m, here, target⟩ := Option.bind_eq_some_iff.mp target
    obtain ⟨inModules, moduleId⟩ := (get?_moduleTable fields).mp here
    rw [Module.target?, plain] at target
    obtain ⟨f, field, _⟩ := Option.map_eq_some_iff.mp target
    exact ⟨i, member, id, m, inModules, moduleId, f, List.mem_of_find?_eq_some field,
      by simpa using List.find?_some field⟩

theorem reads_source {p : Place} (field : w.IsField p) : w.Reads p (w.source p) := by
  obtain ⟨i, found⟩ := (hasInstance_iff fields).mp field.present
  obtain ⟨member, id⟩ := (get?_instanceTable fields).mp found
  have holds : w.Holds p ((i.values.get? p.name).getD .blank) := ⟨i, member, id, rfl⟩
  rw [source, found]
  simp only [field.plain, Bool.false_eq_true, if_false, fieldSource]
  cases link : i.links.get? p.name with
  | none => exact .stored ⟨i, member, id, link⟩ holds
  | some link' =>
    have links : w.LinksTo p link' := ⟨i, member, id, link⟩
    have plain := fields.plain i member p.name link' link
    simp only [linkSource]
    cases there : w.instanceTable.get? link'.instanceId with
    | none =>
      refine .severed (.missingInstance links fun present => ?_) holds
      obtain ⟨j, found'⟩ := (hasInstance_iff fields).mp present
      rw [there] at found'
      cases found'
    | some j =>
      have declared := declares_iff fields plain there
      dsimp only
      cases target : (w.moduleTable.get? j.moduleId).bind (·.target? link'.name) with
      | none =>
        refine .severed (.missingTarget links ((hasInstance_iff fields).mpr ⟨j, there⟩) ?_) holds
        rw [declared, target]
        rintro ⟨t, ⟨⟩⟩
      | some t => exact .linked ⟨links, declared.mpr ⟨t, target⟩⟩ holds

theorem isField_of_draws {p q : Place} (draws : w.Draws p q) : w.IsField q := by
  obtain ⟨⟨i, member, _, link⟩, declared⟩ := draws
  exact ⟨hasInstance_of_declares declared, fields.plain i member p.name q link⟩

theorem draws_of_linked {p link : Place} {own : FieldValue} (field : w.IsField p)
    (found : w.source p = .linked link own) : w.Draws p link ∧ w.Holds p own := by
  have reads := reads_source fields field
  rw [found] at reads
  cases reads with
  | linked draws holds => exact ⟨draws, holds⟩

theorem linked_of_draws {p q : Place} (draws : w.Draws p q) (field : w.IsField p) :
    ∃ own, w.source p = .linked q own := by
  have reads := reads_source fields field
  generalize w.source p = source at reads
  cases reads with
  | stored unlinked => exact absurd draws.1 (not_linksTo_of_isUnlinked fields.instances unlinked)
  | severed severed => exact absurd draws (not_draws_of_severed fields.instances severed)
  | linked draws' => exact ⟨_, by rw [rightUnique_draws fields.instances draws draws']⟩

theorem not_computed {p : Place} (field : w.IsField p) {i : Instance} {m : Module} {o : Output} :
    w.source p ≠ .computed i m o := by
  intro found
  have reads := reads_source fields field
  rw [found] at reads
  cases reads

theorem draws_of_waits {p q : Place} (field : w.IsField p) (waits : w.Waits p q) :
    w.Draws p q := by
  cases waits with
  | link found => exact (draws_of_linked fields field found).1
  | dependency found => exact absurd found (not_computed fields field)

/-- A field that waits for itself through other places is on a cycle of links. -/
theorem chain_of_waits {p q : Place} (field : w.IsField p) (waits : TransGen w.Waits p q) :
    TransGen w.Draws p q ∧ w.IsField q := by
  induction waits with
  | single step =>
    have draws := draws_of_waits fields field step
    exact ⟨.single draws, isField_of_draws fields draws⟩
  | tail _ step ih =>
    have draws := draws_of_waits fields ih.2 step
    exact ⟨ih.1.tail draws, isField_of_draws fields draws⟩

/-! ## Marked fields are the fields on cycles -/

variable {book : Pricebook} {s : Resolution} (coherent : Coherent w book [] s)
include coherent

omit coherent in
theorem leads_of_chain {p q : Place} (field : w.IsField p) (chain : TransGen w.Draws p q) :
    TransGen w.Leads p q := by
  have leads {q r : Place} (draws : w.Draws q r) (field : w.IsField q) : w.Leads q r := by
    obtain ⟨own, found⟩ := linked_of_draws fields draws field
    exact leads_of_waits fields.instances (.link found)
  induction chain with
  | single draws => exact .single (leads draws field)
  | tail before draws ih =>
    obtain ⟨_, _, last⟩ := TransGen.tail'_iff.mp before
    exact ih.tail (leads draws (isField_of_draws fields last))

omit coherent in
theorem singleReturn_of_isField {p : Place} (field : w.IsField p) : w.SingleReturn p := by
  intro q r r' out first second _ _
  rw [← waits_eq_leads fields.instances] at out first second
  have fieldQ : w.IsField q := by
    obtain rfl | chain := Relation.reflTransGen_iff_eq_or_transGen.mp out
    · exact field
    · exact (chain_of_waits fields field chain).2
  exact rightUnique_draws fields.instances (draws_of_waits fields fieldQ first)
    (draws_of_waits fields fieldQ second)

theorem marked_iff_loop {p : Place} (field : w.IsField p) {value : FieldInput}
    (settled : s.settled.get? p = some value) :
    p ∈ s.onCycle ↔ TransGen w.Draws p p := by
  constructor
  · intro marked
    exact (chain_of_waits fields field (coherent.loops p marked)).1
  · intro around
    exact coherent.marked_of_loop fields.instances (singleReturn_of_isField fields field) settled
      (leads_of_chain fields field around)

/-! ## Settled values are the ends of chains -/

theorem ends_of_settled {p : Place} {value : FieldInput} (field : w.IsField p)
    (settled : s.settled.get? p = some value) : w.Ends p value := by
  -- the target of a field has settled before it, unless both are on a cycle
  induction order : s.settled.keys.idxOf p using Nat.strongRecOn generalizing p value with
  | ind n ih =>
    subst order
    have reads := reads_source fields field
    have marking := marked_iff_loop fields coherent field settled
    cases coherent.backed settled with
    | stored found =>
      rw [found] at reads
      cases reads with
      | stored unlinked holds => exact .own unlinked holds
    | severed found =>
      rw [found] at reads
      cases reads with
      | severed severed holds => exact .severed severed holds
    | nowhere found => rw [found] at reads; cases reads
    | loop found marked =>
      exact .cycle (marking.mp marked) (draws_of_linked fields field found).2
    | drawn found unmarked earlier =>
      obtain ⟨draws, holds⟩ := draws_of_linked fields field found
      have target := ih _ earlier.before (isField_of_draws fields draws) earlier.settled rfl
      exact ends_of_draws draws (mt marking.mpr unmarked) holds target
    | @upstream link own fallback reason found unmarked earlier =>
      obtain ⟨draws, holds⟩ := draws_of_linked fields field found
      have fieldLink := isField_of_draws fields draws
      have target := ih _ earlier.before fieldLink earlier.settled rfl
      have why : passedOn link reason = .upstreamBroken := by simp [passedOn, fieldLink.plain]
      rw [why]
      exact ends_of_draws draws (mt marking.mpr unmarked) holds target
    | loopOutput found => exact absurd found (not_computed fields field)
    | output found => exact absurd found (not_computed fields field)

end

/-! ## The resolution of a whole workspace -/

section
variable (fields : w.LinksFields)
include fields

omit fields in
theorem isField_of_reports {p : Place} (reports : w.Reports p) : w.IsField p := by
  obtain ⟨i, member, id, named⟩ := reports
  exact ⟨⟨i, member, id⟩, (mem_fieldNames.mp named).2⟩

/-- Without outputs there is nothing that could crash. -/
theorem calm_fields (book : Pricebook) : w.Calm book w.IsField where
  onward field waits := isField_of_draws fields (draws_of_waits fields field waits)
  computed field found := absurd found (not_computed fields field)

theorem LinksFields.exists_resolveAll (book : Pricebook) : ∃ r, w.resolveAll book = .ok r :=
  (calm_fields fields book).exists_resolveAll fields.instances
    fun _ reports => isField_of_reports reports

/-- The values that a resolved workspace reports are the ends of chains. -/
theorem value?_eq_some_iff {book : Pricebook} {r : Resolved} (run : w.resolveAll book = .ok r)
    {p : Place} {value : FieldInput} :
    r.value? p = some value ↔ w.Reports p ∧ w.Ends p value := by
  obtain ⟨s, coherent, shown, hidden⟩ := settled_of_resolveAll fields.instances run
  constructor
  · intro found
    by_cases reports : w.Reports p
    · obtain ⟨given, found', settled⟩ := shown p reports
      rw [found] at found'
      cases found'
      have field := isField_of_reports reports
      exact ⟨reports, ends_of_settled fields coherent field settled⟩
    · rw [hidden p reports] at found
      cases found
  · rintro ⟨reports, ends⟩
    obtain ⟨given, found, settled⟩ := shown p reports
    have field := isField_of_reports reports
    have ends' := ends_of_settled fields coherent field settled
    rw [found, ends_unique fields.instances ends ends']

theorem isSome_value?_iff {book : Pricebook} {r : Resolved} (run : w.resolveAll book = .ok r)
    {p : Place} : (r.value? p).isSome = true ↔ w.Reports p := by
  obtain ⟨s, coherent, shown, hidden⟩ := settled_of_resolveAll fields.instances run
  by_cases reports : w.Reports p
  · obtain ⟨value, found, _⟩ := shown p reports
    simp [found, reports]
  · simp [hidden p reports, reports]

theorem isNone_linkedTarget?_iff {q : Place} (plain : hasOutputPrefix q.name = false) :
    (w.linkedTarget? q).isNone = true ↔ ¬w.Declares q := by
  have firstInstance : w.firstInstance? q.instanceId = w.instanceTable.get? q.instanceId :=
    Table.find?_eq_get?_indexBy fields.instances q.instanceId
  have firstModule : ∀ id, w.firstModule? id = w.moduleTable.get? id :=
    Table.find?_eq_get?_indexBy fields.modules
  rw [linkedTarget?, firstInstance]
  cases found : w.instanceTable.get? q.instanceId with
  | none =>
    refine iff_of_true rfl fun declared => ?_
    obtain ⟨i, found'⟩ := (hasInstance_iff fields).mp (hasInstance_of_declares declared)
    rw [found] at found'
    cases found'
  | some i =>
    rw [declares_iff fields plain found]
    simp only [Option.bind_eq_bind, Option.bind_some, firstModule]
    cases w.moduleTable.get? i.moduleId with
    | none => simp
    | some m => cases h : m.target? q.name <;> simp [h]

/-- The link of a field counts as broken exactly when it leads nowhere. -/
theorem isLinkBroken_iff {i : Instance} (member : i ∈ w.instances) (field : String) :
    w.isLinkBroken i field = true ↔ ∃ reason, w.Severed ⟨i.id, field⟩ reason := by
  rw [isLinkBroken]
  cases link : i.links.get? field with
  | none =>
    have unlinked : w.IsUnlinked ⟨i.id, field⟩ := ⟨i, member, rfl, link⟩
    simp only [Bool.false_eq_true, false_iff]
    rintro ⟨reason, severed⟩
    exact not_fails_of_reaches fields.instances .refl unlinked (.severed severed)
  | some link' =>
    have links : w.LinksTo ⟨i.id, field⟩ link' := ⟨i, member, rfl, link⟩
    dsimp only
    rw [isNone_linkedTarget?_iff fields (fields.plain i member field link' link)]
    constructor
    · intro missing
      by_cases present : w.HasInstance link'.instanceId
      · exact ⟨_, .missingTarget links present missing⟩
      · exact ⟨_, .missingInstance links present⟩
    · rintro ⟨reason, severed⟩ declared
      exact not_draws_of_severed fields.instances severed ⟨links, declared⟩

/-! ## Order -/

theorem Rearranged.linksFields {w' : Workspace} (rearranged : Rearranged w w') :
    w'.LinksFields where
  instances := rearranged.ids.nodup_iff.mp fields.instances
  modules := (rearranged.modules.map _).nodup_iff.mp fields.modules
  plain j member field link linked := by
    obtain ⟨i, member', same⟩ := rearranged.alike.back j member
    exact fields.plain i member' field link (same.get?_links field ▸ linked)

/-- Another order of the workspace changes no value and no reason. -/
theorem value?_of_rearranged {w' : Workspace} (rearranged : Rearranged w w')
    {book book' : Pricebook} {r r' : Resolved} (run : w.resolveAll book = .ok r)
    (run' : w'.resolveAll book' = .ok r') (p : Place) : r'.value? p = r.value? p := by
  have fields' := rearranged.linksFields fields
  have alike := rearranged.alike
  apply Option.ext
  intro value
  rw [value?_eq_some_iff fields run, value?_eq_some_iff fields' run']
  constructor
  · rintro ⟨reports, ends⟩
    exact ⟨alike.symm.reports fields'.modules fields.modules reports, alike.symm.ends ends⟩
  · rintro ⟨reports, ends⟩
    exact ⟨alike.reports fields.modules fields'.modules reports, alike.ends ends⟩

end

/-- In a workspace whose links lead to fields only, resolution ends with the value at the end of
the chain of each field that it reports, the link of a field counts as broken exactly when it
leads nowhere, and no order of the workspace matters. -/
theorem resolved_field_is_end_of_chain (w : Workspace) (book : Pricebook)
    (instances : (w.instances.map (·.id)).Nodup) (modules : (w.modules.map (·.id)).Nodup)
    (plain : ∀ i ∈ w.instances, ∀ field link, i.links.get? field = some link →
      hasOutputPrefix link.name = false) :
    ∃ r, w.resolveAll book = .ok r ∧
      (∀ i ∈ w.instances, ∀ field, (r.value? ⟨i.id, field⟩).isSome = true ↔
        field ∈ w.fieldNames i) ∧
      (∀ i ∈ w.instances, ∀ field ∈ w.fieldNames i, ∀ value,
        r.value? ⟨i.id, field⟩ = some value ↔ w.Ends ⟨i.id, field⟩ value) ∧
      (∀ i ∈ w.instances, ∀ field ∈ w.fieldNames i, w.isLinkBroken i field = true ↔
        ∃ own, r.value? ⟨i.id, field⟩ = some (.broken .missingInstance own) ∨
          r.value? ⟨i.id, field⟩ = some (.broken .missingTarget own)) ∧
      ∀ w', Rearranged w w' →
        ∃ r', w'.resolveAll book = .ok r' ∧ ∀ p, r'.value? p = r.value? p := by
  have fields : w.LinksFields := ⟨instances, modules, plain⟩
  obtain ⟨r, run⟩ := fields.exists_resolveAll book
  have reported : ∀ i ∈ w.instances, ∀ field, w.Reports ⟨i.id, field⟩ ↔
      field ∈ w.fieldNames i := by
    intro i member field
    constructor
    · rintro ⟨j, member', id, named⟩
      exact Table.eq_of_key instances member' member id ▸ named
    · intro named
      exact ⟨i, member, rfl, named⟩
  have value : ∀ i ∈ w.instances, ∀ field ∈ w.fieldNames i, ∀ value,
      r.value? ⟨i.id, field⟩ = some value ↔ w.Ends ⟨i.id, field⟩ value := by
    intro i member field named value
    rw [value?_eq_some_iff fields run, reported i member]
    exact and_iff_right named
  refine ⟨r, run, fun i member field => ?_, value, fun i member field named => ?_,
    fun w' rearranged => ?_⟩
  · rw [isSome_value?_iff fields run, reported i member]
  · rw [isLinkBroken_iff fields member]
    simp only [value i member field named]
    constructor
    · rintro ⟨reason, severed⟩
      have holds : w.Holds ⟨i.id, field⟩ ((i.values.get? field).getD .blank) :=
        ⟨i, member, rfl, rfl⟩
      cases severed with
      | missingInstance links missing =>
        exact ⟨_, .inl (.severed (.missingInstance links missing) holds)⟩
      | missingTarget links present missing =>
        exact ⟨_, .inr (.severed (.missingTarget links present missing) holds)⟩
    · rintro ⟨own, ends | ends⟩
      · cases ends with
        | severed severed => exact ⟨_, severed⟩
      · cases ends with
        | severed severed => exact ⟨_, severed⟩
  · obtain ⟨r', run'⟩ := (rearranged.linksFields fields).exists_resolveAll book
    exact ⟨r', run', value?_of_rearranged fields rearranged run run'⟩

/-! A field in front of a ring of links, and a ring that passes through an undeclared field. -/

def ringField (name : VariableName) : Field :=
  ⟨name.text, name.text, name, .number, false, .blank, [], .numeric, none, none, none, none⟩

def ringModule : Module where
  id := "m"
  name := "Ring"
  description := none
  category := none
  fields := [ringField ⟨"f", by decide⟩, ringField ⟨"g", by decide⟩, ringField ⟨"h", by decide⟩]
  outputs := []
  formula := "f"
  distinct := by decide +kernel

/-- One instance with the given links, and a text in `f`. -/
def ring (links : Table String Place) : Workspace :=
  ⟨[⟨"a", "m", .ofList [("f", .text "own")], links, none⟩], [ringModule]⟩

/-- `f` is linked to `g`, and `g` and `h` are linked to each other. -/
def ringLinks : Table String Place :=
  .ofList [("f", ⟨"a", "g"⟩), ("g", ⟨"a", "h"⟩), ("h", ⟨"a", "g"⟩)]

/-- `f` and a field that no module declares are linked to each other. -/
def undeclaredLinks : Table String Place :=
  .ofList [("f", ⟨"a", "x"⟩), ("x", ⟨"a", "f"⟩)]

section
variable {links : Table String Place}

theorem linksTo_ring {p link : Place} :
    (ring links).LinksTo p link ↔ p.instanceId = "a" ∧ links.get? p.name = some link := by
  simp [LinksTo, ring, eq_comm (a := "a")]

theorem declares_ring {p : Place} :
    (ring links).Declares p ↔
      p.instanceId = "a" ∧ (p.name = "f" ∨ p.name = "g" ∨ p.name = "h") := by
  simp [Declares, ring, ringModule, ringField, eq_comm]

theorem holds_ring (name : String) :
    (ring links).Holds ⟨"a", name⟩
      ((Table.ofList [("f", FieldValue.text "own")]).get? name |>.getD .blank) := by
  simp [Holds, ring]

theorem linksFields_ring (plain : ∀ e ∈ links.entries, hasOutputPrefix e.2.name = false) :
    (ring links).LinksFields where
  instances := by simp [ring]
  modules := by simp [ring]
  plain i member field link found := by
    obtain rfl := List.mem_singleton.mp member
    exact plain _ (Entries.mem_of_get? found)

end

/-- The field in front of the ring is broken upstream, those on the ring by their cycle. -/
theorem resolved_field_is_end_of_ring :
    ∃ r, (ring ringLinks).resolveAll (.ofLists [] [] []) = .ok r ∧
      r.value? ⟨"a", "f"⟩ = some (.broken .upstreamBroken (.text "own")) ∧
      r.value? ⟨"a", "g"⟩ = some (.broken .cycle .blank) := by
  have fields : (ring ringLinks).LinksFields := linksFields_ring (by decide +kernel)
  obtain ⟨r, run, _, value, _⟩ := resolved_field_is_end_of_chain (ring ringLinks)
    (.ofLists [] [] []) fields.instances fields.modules fields.plain
  have first : (ring ringLinks).Draws ⟨"a", "f"⟩ ⟨"a", "g"⟩ :=
    ⟨linksTo_ring.mpr ⟨rfl, by decide +kernel⟩, declares_ring.mpr (by simp)⟩
  have second : (ring ringLinks).Draws ⟨"a", "g"⟩ ⟨"a", "h"⟩ :=
    ⟨linksTo_ring.mpr ⟨rfl, by decide +kernel⟩, declares_ring.mpr (by simp)⟩
  have third : (ring ringLinks).Draws ⟨"a", "h"⟩ ⟨"a", "g"⟩ :=
    ⟨linksTo_ring.mpr ⟨rfl, by decide +kernel⟩, declares_ring.mpr (by simp)⟩
  have around : TransGen (ring ringLinks).Draws ⟨"a", "g"⟩ ⟨"a", "g"⟩ :=
    .tail (.single second) third
  have straight : ¬TransGen (ring ringLinks).Draws ⟨"a", "f"⟩ ⟨"a", "f"⟩ := by
    intro back
    obtain ⟨⟨_, name⟩, _, links, _⟩ := TransGen.tail'_iff.mp back
    have entry := Entries.mem_of_get? (linksTo_ring.mp links).2
    have none : ∀ e ∈ ringLinks.entries, e.2 ≠ ⟨"a", "f"⟩ := by decide +kernel
    exact none _ entry rfl
  refine ⟨r, run, (value _ (.head _) "f" (by decide +kernel) _).mpr ?_,
    (value _ (.head _) "g" (by decide +kernel) _).mpr ?_⟩
  · exact .upstream straight (.single first) (.loop around) (holds_ring "f")
  · exact .cycle around (holds_ring "g")

/-- Following the links of an undeclared field may lead back to it without a cycle being
found: its target is declared, but the link of its target is not followed. -/
theorem undeclared_ring_is_not_cycle :
    ((ring undeclaredLinks).instances.map (·.id)).Nodup ∧
    ((ring undeclaredLinks).modules.map (·.id)).Nodup ∧
    (∀ i ∈ (ring undeclaredLinks).instances, ∀ field link, i.links.get? field = some link →
      hasOutputPrefix link.name = false) ∧
    TransGen (ring undeclaredLinks).LinksTo ⟨"a", "x"⟩ ⟨"a", "x"⟩ ∧
    ∃ r, (ring undeclaredLinks).resolveAll (.ofLists [] [] []) = .ok r ∧
      r.value? ⟨"a", "x"⟩ = some (.broken .upstreamBroken .blank) := by
  have fields : (ring undeclaredLinks).LinksFields := linksFields_ring (by decide +kernel)
  obtain ⟨r, run⟩ := fields.exists_resolveAll (.ofLists [] [] [])
  have out : (ring undeclaredLinks).LinksTo ⟨"a", "x"⟩ ⟨"a", "f"⟩ :=
    linksTo_ring.mpr ⟨rfl, by decide +kernel⟩
  have back : (ring undeclaredLinks).LinksTo ⟨"a", "f"⟩ ⟨"a", "x"⟩ :=
    linksTo_ring.mpr ⟨rfl, by decide +kernel⟩
  have undeclared : ¬(ring undeclaredLinks).Declares ⟨"a", "x"⟩ := by
    rw [declares_ring]
    simp
  have straight : ¬TransGen (ring undeclaredLinks).Draws ⟨"a", "x"⟩ ⟨"a", "x"⟩ := by
    intro around
    obtain ⟨_, _, draws⟩ := TransGen.tail'_iff.mp around
    exact undeclared draws.2
  refine ⟨fields.instances, fields.modules, fields.plain, .tail (.single out) back, r, run, ?_⟩
  refine (value?_eq_some_iff fields run).mpr ⟨⟨_, .head _, rfl, by decide +kernel⟩, ?_⟩
  exact .upstream straight (.single ⟨out, declares_ring.mpr (by simp)⟩)
    (.severed (.missingTarget back ⟨_, .head _, rfl⟩ undeclared)) (holds_ring "x")

end Workspace

end Costing

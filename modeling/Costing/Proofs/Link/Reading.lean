import Costing.Link.Proposal
import Costing.Proofs.Cost
import Costing.Proofs.Link.Consistency

/-! # What a module reads from resolved fields

The inputs from which an instance is costed are the resolved values of its fields.  A field without
a link is read as it is stored (`Consistent.input?_of_unlinked`), and there is nothing under the key
of an output, whatever is stored there (`Consistent.get?_inputs_of_hasOutputPrefix`).

A link carries the value of its source, and each end tags it by its own declaration.  The ends have
one type, so they read the same unless the value is blank; then each of them reads its own default
(`linked_field_reads_source`). -/

namespace Costing

open Formula (Scope)

/-- The inputs from which an instance is costed. -/
def Workspace.Resolved.inputs (r : Workspace.Resolved) (id : String) : Table String FieldInput :=
  (r.values.get? id).getD .empty

theorem Workspace.Resolved.get?_inputs {r : Workspace.Resolved} {id name : String} :
    (r.inputs id).get? name = r.value? ⟨id, name⟩ := get?_values_getD ..

theorem Field.kind_of_compatible {f g : Field} (fits : compatible f (.field g) = true) :
    f.kind = g.kind := by
  unfold compatible at fits
  cases kind : f.kind <;> simp only [kind] at fits
  case number =>
    rw [Bool.and_eq_true, beq_iff_eq] at fits
    exact fits.1.symm
  case boolean => exact (beq_iff_eq.mp fits).symm
  case dropdown =>
    rw [Bool.and_eq_true, Bool.and_eq_true, beq_iff_eq] at fits
    exact fits.1.1.symm
  all_goals cases fits

/-! ## Resolved inputs -/

section
variable {w : Workspace} {r : Workspace.Resolved} {s : Resolution} {i : Instance} {m : Module}
  {name : String}

theorem mem_fieldNames_of_field (used : w.moduleTable.get? i.moduleId = some m) {f : Field}
    (field : f ∈ m.fields) : f.name.text ∈ w.fieldNames i :=
  Workspace.mem_fieldNames.mpr
    ⟨.inr (.inr ⟨m, used, f, field, rfl⟩), hasOutputPrefix_of_plain f.name.plain⟩

/-- A field of an instance is read by its declaration. -/
theorem get?_ofInputs_of_field {book : Pricebook} {f : Field} (field : f ∈ m.fields) {id : String}
    {input : FieldInput} (value : r.value? ⟨id, f.name.text⟩ = some input) :
    (Scope.ofInputs book m.fields (r.inputs id)).values.get? f.name.text = some (f.tag input) := by
  rw [Scope.get?_ofInputs, Module.get?_indexBy_field field, Workspace.Resolved.get?_inputs, value]
  rfl

variable (consistent : Consistent w r s)
include consistent

theorem Consistent.get?_inputs_of_hasOutputPrefix (here : hasOutputPrefix name = true) :
    (r.inputs i.id).get? name = none := by
  rw [Workspace.Resolved.get?_inputs]
  apply consistent.unreported
  rintro ⟨j, _, _, named⟩
  rw [(Workspace.mem_fieldNames.mp named).2] at here
  cases here

/-- A module costs the same from resolved inputs as from others that give it what it reads. -/
theorem Consistent.cost_congr {book : Pricebook} {inputs : Table String FieldInput}
    {c : InstanceCost} {id : String} (run : m.cost book (r.inputs i.id) id = .ok c)
    (same : ∀ n, hasOutputPrefix n = false → m.Reads n →
      m.input? (r.inputs i.id) n = m.input? inputs n)
    (shields : m.Shields inputs c.values) (id' : String) :
    m.cost book inputs id' = .ok { c with instanceId := id' } :=
  Module.cost_congr run (Module.sameReadings_of_plain
    (fun _ here => consistent.get?_inputs_of_hasOutputPrefix here) same shields) id'

variable (distinct : (w.instances.map (·.id)).Nodup) (placed : i ∈ w.instances)
include distinct placed

theorem Consistent.value?_of_hidden (hidden : name ∉ w.fieldNames i) :
    r.value? ⟨i.id, name⟩ = none := by
  apply consistent.unreported
  rintro ⟨j, placed', id, named⟩
  obtain rfl := Table.eq_of_key distinct placed' placed id
  exact hidden named

variable (used : w.moduleTable.get? i.moduleId = some m)
include used

/-- A module reads an unlinked field of its instance as it is stored. -/
theorem Consistent.input?_of_unlinked (plain : hasOutputPrefix name = false)
    (unlinked : i.links.get? name = none) :
    m.input? (r.inputs i.id) name = m.input? i.storedInputs name := by
  have stored : i.storedInputs.get? name = (i.values.get? name).map .given :=
    Table.get?_mapValues ..
  cases declared : m.field? name with
  | some f =>
    obtain ⟨field, rfl⟩ := Module.mem_of_field? declared
    rw [Module.input?_of_field field, Module.input?_of_field field,
      Workspace.Resolved.get?_inputs, stored,
      consistent.unlinked i placed _ (mem_fieldNames_of_field used field) unlinked]
    cases i.values.get? f.name.text <;> rfl
  | none =>
    rw [Module.input?, Module.input?, declared, Workspace.Resolved.get?_inputs, stored]
    cases value : i.values.get? name with
    | some v =>
      have named : name ∈ w.fieldNames i :=
        Workspace.mem_fieldNames.mpr
          ⟨.inl (Table.mem_keys_of_get? value), plain⟩
      rw [consistent.unlinked i placed name named unlinked, value]
      rfl
    | none =>
      have hidden : name ∉ w.fieldNames i := by
        intro named
        obtain ⟨key | key | ⟨m', used', f, field, rfl⟩, _⟩ := Workspace.mem_fieldNames.mp named
        · rw [← Table.contains_iff, Table.contains, value] at key
          cases key
        · rw [← Table.contains_iff, Table.contains, unlinked] at key
          cases key
        · rw [used] at used'
          cases used'
          exact Module.noField_of_field? declared f field rfl
      rw [consistent.value?_of_hidden distinct placed hidden]
      rfl

end

section
variable {w : Workspace} {r : Workspace.Resolved} {s : Resolution}
  (consistent : Consistent w r s) {a b : Instance} (drawing : a ∈ w.instances)
  (placed : b ∈ w.instances) {m : Module} (used : w.moduleTable.get? b.moduleId = some m)
  {g : Field} (field : g ∈ m.fields) {name : String} (named : name ∈ w.fieldNames a)
  (links : a.links.get? name = some ⟨b.id, g.name.text⟩)
include consistent drawing placed used field named links

/-- A link to a field carries the value that is shown for the field. -/
theorem Consistent.value?_of_link :
    ∃ value source, r.value? ⟨a.id, name⟩ = some value ∧
      r.value? ⟨b.id, g.name.text⟩ = some source ∧
      (value.isBroken = false ↔ source.isBroken = false) ∧
      (value.isBroken = false → value = source) := by
  have target : w.HasTarget ⟨b.id, g.name.text⟩ (.field g) :=
    ⟨m, ⟨b, placed, rfl, used⟩, .field field⟩
  obtain ⟨value, source, shown, settled, both, same⟩ :=
    consistent.linked a drawing name named _ links ⟨_, target⟩
  obtain ⟨source', shown', settled'⟩ := consistent.settled ⟨b.id, g.name.text⟩
    ⟨b, placed, rfl, mem_fieldNames_of_field used field⟩
  rw [settled] at settled'
  cases settled'
  exact ⟨value, source, shown, shown', both, same⟩

/-- Behind a link to an unlinked field is what the field holds. -/
theorem Consistent.value?_of_link_to_unlinked (unlinked : b.links.get? g.name.text = none) :
    r.value? ⟨a.id, name⟩ = some (.given ((b.values.get? g.name.text).getD .blank)) := by
  obtain ⟨value, source, shown, shown', both, same⟩ :=
    consistent.value?_of_link drawing placed used field named links
  rw [consistent.unlinked b placed _ (mem_fieldNames_of_field used field) unlinked] at shown'
  cases shown'
  rw [shown, same (both.mpr rfl)]

end

/-- A linked field whose value is not broken has the value of its source.  Each end tags that value
by its own declaration: a value that is not blank alike, a blank one as its own default. -/
theorem linked_field_reads_source (w : Workspace) (book : Pricebook)
    (instances : (w.instances.map (·.id)).Nodup) (modules : (w.modules.map (·.id)).Nodup)
    (r : Workspace.Resolved) (run : w.resolveAll book = .ok r)
    (a : Instance) (drawing : a ∈ w.instances) (ma : Module) (usedA : ma ∈ w.modules)
    (moduleA : ma.id = a.moduleId) (f : Field) (fieldA : f ∈ ma.fields)
    (b : Instance) (placed : b ∈ w.instances) (mb : Module) (usedB : mb ∈ w.modules)
    (moduleB : mb.id = b.moduleId) (g : Field) (fieldB : g ∈ mb.fields)
    (links : a.links.get? f.name.text = some ⟨b.id, g.name.text⟩)
    (fits : compatible f (.field g) = true) (v : FieldValue)
    (value : r.value? ⟨a.id, f.name.text⟩ = some (.given v)) :
    r.value? ⟨b.id, g.name.text⟩ = some (.given v) ∧
    (Scope.ofInputs book ma.fields (r.inputs a.id)).values.get? f.name.text =
      some (f.tag (.given v)) ∧
    (Scope.ofInputs book mb.fields (r.inputs b.id)).values.get? g.name.text =
      some (g.tag (.given v)) ∧
    (v.isBlank = false → f.tag (.given v) = g.tag (.given v)) ∧
    (v.isBlank = true → f.tag (.given v) = f.tag (.given f.default) ∧
      g.tag (.given v) = g.tag (.given g.default)) := by
  obtain ⟨s, consistent⟩ := exists_consistent instances run
  have foundA : w.moduleTable.get? a.moduleId = some ma :=
    (Table.get?_indexBy_iff modules).mpr ⟨usedA, moduleA⟩
  have foundB : w.moduleTable.get? b.moduleId = some mb :=
    (Table.get?_indexBy_iff modules).mpr ⟨usedB, moduleB⟩
  obtain ⟨value', source, shown, shown', _, same⟩ := consistent.value?_of_link drawing placed
    foundB fieldB (mem_fieldNames_of_field foundA fieldA) links
  rw [value] at shown
  cases shown
  rw [← same rfl] at shown'
  exact ⟨shown', get?_ofInputs_of_field fieldA value, get?_ofInputs_of_field fieldB shown',
    Field.tag_of_filled (Field.kind_of_compatible fits),
    fun blank => ⟨Field.tag_of_blank blank, Field.tag_of_blank blank⟩⟩

/-! Two sheets whose fares have different defaults, one of them linked to the other. -/

def fareField (default : FieldValue) : Field :=
  { numberField ⟨"fare", by decide⟩ with default := default }

def fareModule (id : String) (default : FieldValue) : Module where
  id := id
  name := "Sheet"
  description := none
  category := none
  fields := [fareField default]
  outputs := []
  formula := "fare"
  distinct := List.nodup_singleton _

/-- Field `fare` of `a` is linked to that of `b`. -/
def fareSheets (own source : Table String FieldValue) : Workspace :=
  ⟨[⟨"a", "plain", own, .ofList [("fare", ⟨"b", "fare"⟩)], none⟩,
    ⟨"b", "standard", source, .empty, none⟩],
    [fareModule "plain" .blank, fareModule "standard" (.number 5)]⟩

section
variable {own source : Table String FieldValue} {book : Pricebook}

theorem distinct_fareSheets : ((fareSheets own source).instances.map (·.id)).Nodup ∧
    ((fareSheets own source).modules.map (·.id)).Nodup := by
  simp [fareSheets, fareModule]

theorem calm_fareSheets : ∀ m ∈ (fareSheets own source).modules,
    CalmExpression book m.formula ∧ ∀ o ∈ m.outputs, CalmExpression book o.expression := by
  have fare : CalmExpression book "fare" := @calm_of_name book "fare" "fare" (by decide +kernel)
  intro m member
  simp only [fareSheets, List.mem_cons, List.not_mem_nil, or_false] at member
  obtain rfl | rfl := member
  · exact ⟨fare, nofun⟩
  · exact ⟨fare, nofun⟩

theorem moduleTable_fareSheets :
    (fareSheets own source).moduleTable.get? "plain" = some (fareModule "plain" .blank) ∧
    (fareSheets own source).moduleTable.get? "standard" =
      some (fareModule "standard" (.number 5)) := by
  constructor
  · exact (Table.get?_indexBy_iff distinct_fareSheets.2).mpr ⟨.head _, rfl⟩
  · exact (Table.get?_indexBy_iff distinct_fareSheets.2).mpr ⟨.tail _ (.head _), rfl⟩

theorem link_fareSheets :
    (Table.ofList [("fare", Place.mk "b" "fare")]).get? "fare" = some ⟨"b", "fare"⟩ := by
  decide +kernel

/-- The linked fare is the one that is stored behind the link. -/
theorem value?_fareSheets {r : Workspace.Resolved}
    (run : (fareSheets own source).resolveAll book = .ok r) :
    r.value? ⟨"a", "fare"⟩ = some (.given ((source.get? "fare").getD .blank)) ∧
      r.value? ⟨"b", "fare"⟩ = some (.given ((source.get? "fare").getD .blank)) := by
  obtain ⟨s, consistent⟩ := exists_consistent distinct_fareSheets.1 run
  have drawing := consistent.value?_of_link_to_unlinked (.head _) (.tail _ (.head _))
    moduleTable_fareSheets.2 (.head _)
    (mem_fieldNames_of_field moduleTable_fareSheets.1 (.head _)) link_fareSheets rfl
  have placed := consistent.unlinked _ (.tail _ (.head _)) _
    (mem_fieldNames_of_field moduleTable_fareSheets.2 (.head _)) rfl
  exact ⟨drawing, placed⟩

theorem exists_resolved_fareSheets : ∃ r, (fareSheets own source).resolveAll book = .ok r := by
  obtain ⟨recalculated, run⟩ := exists_recalculate calm_fareSheets distinct_fareSheets.1
  obtain ⟨r, resolved, _⟩ := bind_eq_ok_iff.mp run
  exact ⟨r, resolved⟩

end

/-- A fare that is not blank is the same at both ends of the link. -/
theorem linked_field_reads_source_fare :
    ∃ r, (fareSheets .empty (.ofList [("fare", .number 2)])).resolveAll (.ofLists [] [] []) =
        .ok r ∧
      ∃ fare, (Scope.ofInputs (.ofLists [] [] []) (fareModule "plain" .blank).fields
          (r.inputs "a")).values.get? "fare" = some fare ∧
        (Scope.ofInputs (.ofLists [] [] []) (fareModule "standard" (.number 5)).fields
          (r.inputs "b")).values.get? "fare" = some fare := by
  obtain ⟨r, run⟩ := @exists_resolved_fareSheets .empty (.ofList [("fare", .number 2)])
    (.ofLists [] [] [])
  have value : r.value? ⟨"a", "fare"⟩ = some (.given (.number 2)) := (value?_fareSheets run).1
  obtain ⟨_, drawn, read, same, _⟩ := linked_field_reads_source _ _ distinct_fareSheets.1
    distinct_fareSheets.2 r run _ (.head _) _ (.head _) rfl _ (.head _) _ (.tail _ (.head _)) _
    (.tail _ (.head _)) rfl _ (.head _) link_fareSheets rfl (.number 2) value
  exact ⟨r, run, _, drawn, same rfl ▸ read⟩

/-- A blank fare is the default at the end that has one, and missing at the other. -/
theorem blank_link_reads_own_default :
    compatible (fareField .blank) (.field (fareField (.number 5))) = true ∧
    ∃ r, (fareSheets .empty .empty).resolveAll (.ofLists [] [] []) = .ok r ∧
      r.value? ⟨"a", "fare"⟩ = some (.given .blank) ∧
      (Scope.ofInputs (.ofLists [] [] []) (fareModule "plain" .blank).fields
        (r.inputs "a")).values.get? "fare" = some .missing ∧
      (Scope.ofInputs (.ofLists [] [] []) (fareModule "standard" (.number 5)).fields
        (r.inputs "b")).values.get? "fare" = some (.number 5) := by
  obtain ⟨r, run⟩ := exists_resolved_fareSheets
  obtain ⟨drawn, read⟩ := value?_fareSheets run
  refine ⟨rfl, r, run, drawn, ?_, ?_⟩
  · exact get?_ofInputs_of_field (m := fareModule "plain" .blank) (.head _) drawn
  · exact get?_ofInputs_of_field (m := fareModule "standard" (.number 5)) (.head _) read

end Costing

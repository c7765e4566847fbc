import Costing.Link.Resolution
import Costing.Proofs.Output.Naming

/-! # Where places get their values from

`explains_source` reads the source of a place as a statement about the instances and modules of the
workspace: which instance holds the place, what it is linked to, and whether the place behind the
link is declared (`Workspace.HasTarget`).  Whatever the search finds out about a source is taken
from here. -/

namespace Costing

namespace Module

/-- What a module declares under a name: a field under its name, an output under its key. -/
inductive Targets (m : Module) : String → LinkTarget → Prop where
  | field {f : Field} (declared : f ∈ m.fields) : m.Targets f.name.text (.field f)
  | output {o : Output} (declared : o ∈ m.outputs) : m.Targets o.key (.output o)

variable {m : Module}

theorem key_of_output? {name : String} {o : Output} (isOutput : hasOutputPrefix name = true)
    (found : m.output? name = some o) : o ∈ m.outputs ∧ o.key = name := by
  refine ⟨List.mem_of_find?_eq_some found, ?_⟩
  have named : o.name.text = dropOutputPrefix name := by simpa using List.find?_some found
  rw [Output.key, named, outputPrefix_append_drop isOutput]

theorem target?_eq_some_iff {name : String} {t : LinkTarget} :
    m.target? name = some t ↔ m.Targets name t := by
  constructor
  · intro found
    unfold target? at found
    by_cases isOutput : hasOutputPrefix name = true
    · rw [if_pos isOutput] at found
      obtain ⟨o, output, rfl⟩ := Option.map_eq_some_iff.mp found
      obtain ⟨declared, rfl⟩ := key_of_output? isOutput output
      exact .output declared
    · rw [if_neg isOutput] at found
      obtain ⟨f, field, rfl⟩ := Option.map_eq_some_iff.mp found
      obtain ⟨declared, rfl⟩ := mem_of_field? field
      exact .field declared
  · intro targets
    cases targets with
    | @field f declared =>
      have present : (m.field? f.name.text).isSome = true :=
        List.find?_isSome.mpr ⟨f, declared, beq_self_eq_true _⟩
      obtain ⟨g, found⟩ := Option.isSome_iff_exists.mp present
      obtain ⟨declared', same⟩ := mem_of_field? found
      rw [target?, hasOutputPrefix_of_plain f.name.plain, if_neg Bool.false_ne_true, found,
        field_unique declared' declared same]
      rfl
    | @output o declared =>
      rw [target?, if_pos o.hasOutputPrefix_key, output?_eq_some declared o.dropOutputPrefix_key]
      rfl

end Module

namespace Workspace

section
variable (w : Workspace)

/-- The instance with an identifier uses a module. -/
def Uses (id : String) (m : Module) : Prop :=
  ∃ i ∈ w.instances, i.id = id ∧ w.moduleTable.get? i.moduleId = some m

/-- The module of an instance declares a place. -/
def HasTarget (q : Place) (t : LinkTarget) : Prop :=
  ∃ m, w.Uses q.instanceId m ∧ m.Targets q.name t

/-- What the source of a place says about the place. -/
inductive Explains (p : Place) : Source → Prop where
  | stored {i : Instance} (placed : i ∈ w.instances) (id : i.id = p.instanceId)
      (plain : hasOutputPrefix p.name = false) (unlinked : i.links.get? p.name = none) :
      Explains p (.stored ((i.values.get? p.name).getD .blank))
  | severed {i : Instance} {link : Place} {reason : BrokenReason} (placed : i ∈ w.instances)
      (id : i.id = p.instanceId) (plain : hasOutputPrefix p.name = false)
      (links : i.links.get? p.name = some link) (missing : ∀ t, ¬w.HasTarget link t) :
      Explains p (.severed reason link ((i.values.get? p.name).getD .blank))
  | linked {i : Instance} {link : Place} {t : LinkTarget} (placed : i ∈ w.instances)
      (id : i.id = p.instanceId) (plain : hasOutputPrefix p.name = false)
      (links : i.links.get? p.name = some link) (target : w.HasTarget link t) :
      Explains p (.linked link ((i.values.get? p.name).getD .blank))
  | computed {i : Instance} {m : Module} {o : Output} (placed : i ∈ w.instances)
      (id : i.id = p.instanceId) (used : w.moduleTable.get? i.moduleId = some m)
      (declared : o ∈ m.outputs) (key : o.key = p.name) : Explains p (.computed i m o)
  | nowhere (absent : hasOutputPrefix p.name = false → ∀ i ∈ w.instances, i.id ≠ p.instanceId) :
      Explains p .nowhere

end

/-- Two workspaces of the same modules, whose instances use the same ones. -/
structure SameFrame (w w' : Workspace) : Prop where
  modules : w'.modules = w.modules
  uses : w'.instances.map (fun i => (i.id, i.moduleId)) =
    w.instances.map fun i => (i.id, i.moduleId)

section
variable {w w' : Workspace}

theorem SameFrame.trans {w'' : Workspace} (first : w.SameFrame w') (second : w'.SameFrame w'') :
    w.SameFrame w'' :=
  ⟨second.modules.trans first.modules, second.uses.trans first.uses⟩

theorem SameFrame.ids (same : w.SameFrame w') :
    w'.instances.map (·.id) = w.instances.map (·.id) := by
  have ids := congrArg (List.map Prod.fst) same.uses
  simpa [List.map_map, Function.comp_def] using ids

theorem SameFrame.moduleTable (same : w.SameFrame w') : w'.moduleTable = w.moduleTable := by
  rw [Workspace.moduleTable, Workspace.moduleTable, same.modules]

theorem SameFrame.hasTarget (same : w.SameFrame w') {q : Place} {t : LinkTarget}
    (target : w.HasTarget q t) : w'.HasTarget q t := by
  obtain ⟨m, ⟨i, placed, id, used⟩, targets⟩ := target
  have use : (i.id, i.moduleId) ∈ w'.instances.map fun i => (i.id, i.moduleId) :=
    same.uses ▸ List.mem_map.mpr ⟨i, placed, rfl⟩
  obtain ⟨j, placed', pair⟩ := List.mem_map.mp use
  obtain ⟨sameId, sameModule⟩ := Prod.ext_iff.mp pair
  refine ⟨m, ⟨j, placed', sameId.trans id, ?_⟩, targets⟩
  dsimp only at sameModule
  rw [same.moduleTable, sameModule, used]

end

variable {w : Workspace} (distinct : (w.instances.map (·.id)).Nodup)
include distinct

theorem get?_instanceTable_iff {id : String} {i : Instance} :
    w.instanceTable.get? id = some i ↔ i ∈ w.instances ∧ i.id = id :=
  Table.get?_indexBy_iff distinct

theorem hasTarget_iff {q : Place} {i : Instance}
    (found : w.instanceTable.get? q.instanceId = some i) {t : LinkTarget} :
    w.HasTarget q t ↔ (w.moduleTable.get? i.moduleId).bind (·.target? q.name) = some t := by
  obtain ⟨placed, id⟩ := (get?_instanceTable_iff distinct).mp found
  rw [Option.bind_eq_some_iff]
  constructor
  · rintro ⟨m, ⟨j, placed', id', used⟩, targets⟩
    obtain rfl := Table.eq_of_key distinct placed placed' (id.trans id'.symm)
    exact ⟨m, used, Module.target?_eq_some_iff.mpr targets⟩
  · rintro ⟨m, used, target⟩
    exact ⟨m, ⟨i, placed, id, used⟩, Module.target?_eq_some_iff.mp target⟩

/-- A link is severed exactly if the place behind it is not declared. -/
theorem linkSource_eq (link : Place) (own : FieldValue) :
    (∃ t, w.HasTarget link t) ∧ w.linkSource link own = .linked link own ∨
      (∀ t, ¬w.HasTarget link t) ∧ ∃ reason, w.linkSource link own = .severed reason link own := by
  rw [linkSource]
  cases found : w.instanceTable.get? link.instanceId with
  | none =>
    refine .inr ⟨?_, _, rfl⟩
    rintro t ⟨m, ⟨i, placed, id, _⟩, _⟩
    rw [(get?_instanceTable_iff distinct).mpr ⟨placed, id⟩] at found
    cases found
  | some i =>
    dsimp only
    cases target : (w.moduleTable.get? i.moduleId).bind (·.target? link.name) with
    | none =>
      refine .inr ⟨fun t declared => ?_, _, rfl⟩
      rw [hasTarget_iff distinct found, target] at declared
      cases declared
    | some t => exact .inl ⟨⟨t, (hasTarget_iff distinct found).mpr target⟩, rfl⟩

theorem explains_source (p : Place) : w.Explains p (w.source p) := by
  rw [source]
  cases found : w.instanceTable.get? p.instanceId with
  | none =>
    refine .nowhere fun _ i placed id => ?_
    rw [(get?_instanceTable_iff distinct).mpr ⟨placed, id⟩] at found
    cases found
  | some i =>
    obtain ⟨placed, id⟩ := (get?_instanceTable_iff distinct).mp found
    dsimp only
    cases isOutput : hasOutputPrefix p.name with
    | false =>
      rw [if_neg Bool.false_ne_true, fieldSource]
      cases links : i.links.get? p.name with
      | none => exact .stored placed id isOutput links
      | some link =>
        dsimp only
        obtain ⟨⟨t, target⟩, linked⟩ | ⟨missing, reason, severed⟩ :=
          linkSource_eq distinct link ((i.values.get? p.name).getD .blank)
        · rw [linked]
          exact .linked placed id isOutput links target
        · rw [severed]
          exact .severed placed id isOutput links missing
    | true =>
      -- a place with the name of an output may be nowhere even in an instance that is there
      have notPlain : hasOutputPrefix p.name ≠ false := by simp [isOutput]
      rw [if_pos rfl, outputSource]
      cases used : w.moduleTable.get? i.moduleId with
      | none => exact .nowhere fun plain => absurd plain notPlain
      | some m =>
        dsimp only
        cases named : m.output? p.name with
        | none => exact .nowhere fun plain => absurd plain notPlain
        | some o =>
          obtain ⟨declared, key⟩ := Module.key_of_output? isOutput named
          exact .computed placed id used declared key

theorem source_of_output {i : Instance} (placed : i ∈ w.instances) {m : Module}
    (used : w.moduleTable.get? i.moduleId = some m) {o : Output} (declared : o ∈ m.outputs) :
    w.source ⟨i.id, o.key⟩ = .computed i m o := by
  simp only [source, (get?_instanceTable_iff distinct).mpr ⟨placed, rfl⟩, o.hasOutputPrefix_key,
    if_true, outputSource, used, Module.output?_eq_some declared o.dropOutputPrefix_key]

end Workspace

end Costing

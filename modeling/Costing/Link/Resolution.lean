import Costing.Output.Computation
import Costing.Output.Dependency
import Costing.Workspace

/-! # Following links

The value of a field is the one stored in it, or the value of the place that it is linked to; the
value of an output is computed from the values of the fields on which it depends.  Places are
resolved depth first, each one once.  The places that wait for one another form the walk; a
place that is met again while it waits closes a cycle, and every place on that cycle is
broken.

A broken link gives its reason and the value stored in the field, and nothing else stops: one
bad link leaves the rest of the workspace alone.  Only a crash of an expression ends the whole
resolution. -/

namespace Costing

/-! ## Where a place gets its value from -/

/-- Where a place gets its value from. -/
inductive Source where
  /-- A field without a link. -/
  | stored (own : FieldValue)
  /-- A field whose link leads nowhere. -/
  | severed (reason : BrokenReason) (link : Place) (own : FieldValue)
  /-- A field with a link to a declared field or output. -/
  | linked (link : Place) (own : FieldValue)
  /-- An output of a module. -/
  | computed (owner : Instance) (definition : Module) (output : Output)
  /-- No such place. -/
  | nowhere

namespace Workspace

def linkSource (w : Workspace) (link : Place) (own : FieldValue) : Source :=
  match w.instanceTable.get? link.instanceId with
  | none => .severed .missingInstance link own
  | some i =>
    match (w.moduleTable.get? i.moduleId).bind (·.target? link.name) with
    | none => .severed .missingTarget link own
    | some _ => .linked link own

def fieldSource (w : Workspace) (i : Instance) (field : String) : Source :=
  let own := (i.values.get? field).getD .blank
  match i.links.get? field with
  | none => .stored own
  | some link => w.linkSource link own

/-- The source of an output, named with its prefix. -/
def outputSource (w : Workspace) (i : Instance) (name : String) : Source :=
  match w.moduleTable.get? i.moduleId with
  | none => .nowhere
  | some m =>
    match m.output? name with
    | none => .nowhere
    | some o => .computed i m o

def source (w : Workspace) (p : Place) : Source :=
  match w.instanceTable.get? p.instanceId with
  | none => .nowhere
  | some i => if hasOutputPrefix p.name then w.outputSource i p.name else w.fieldSource i p.name

/-- The places of an instance that may wait for others: linked fields and outputs. -/
def waitingPlacesOf (w : Workspace) (i : Instance) : List Place :=
  let outputs := match w.moduleTable.get? i.moduleId with
    | some m => m.outputs.map (·.key)
    | none => []
  (i.links.keys ++ outputs).map (Place.mk i.id)

def waitingPlaces (w : Workspace) : List Place := w.instances.flatMap w.waitingPlacesOf

end Workspace

/-- Whether a source gives its value without waiting for other places. -/
def Source.isImmediate : Source → Bool
  | .linked _ _ | .computed _ _ _ => false
  | _ => true

/-- A name with the prefix of outputs is the prefix and the rest. -/
theorem outputPrefix_append_drop {name : String} (h : hasOutputPrefix name = true) :
    outputPrefix ++ dropOutputPrefix name = name := by
  simp only [hasOutputPrefix, List.isPrefixOf_iff_prefix] at h
  obtain ⟨rest, hrest⟩ := h
  apply String.toList_inj.mp
  have hlen : outputPrefix.toList.length = outputPrefix.length := String.length_toList
  have hp : hasOutputPrefix name = true := by
    simp only [hasOutputPrefix, List.isPrefixOf_iff_prefix]
    exact ⟨rest, hrest⟩
  simp only [dropOutputPrefix, hp, if_true, String.toList_append, String.toList_ofList]
  rw [← hrest, ← hlen, List.drop_left]

namespace Workspace

/-- A place whose source waits is one of the waiting places. -/
theorem mem_waitingPlaces {w : Workspace} {p : Place} (h : (w.source p).isImmediate = false) :
    p ∈ w.waitingPlaces := by
  obtain ⟨id, name⟩ := p
  simp only [source] at h
  split at h
  · simp [Source.isImmediate] at h
  · next i hi =>
    obtain ⟨hmem, rfl⟩ := Table.mem_of_get?_indexBy hi
    refine List.mem_flatMap.mpr ⟨i, hmem, List.mem_map.mpr ⟨name, ?_, rfl⟩⟩
    split at h
    · next hp =>
      simp only [outputSource] at h
      split at h
      · simp [Source.isImmediate] at h
      · next m hm =>
        split at h
        · simp [Source.isImmediate] at h
        · next o ho =>
          have hkey : o.key = name := by
            have := List.find?_some ho
            simp only [beq_iff_eq] at this
            rw [Output.key, this, outputPrefix_append_drop hp]
          simp only [hm, List.mem_append, List.mem_map]
          exact Or.inr ⟨o, List.mem_of_find?_eq_some ho, hkey⟩
    · simp only [fieldSource] at h
      split at h
      · simp [Source.isImmediate] at h
      · next link hl =>
        refine List.mem_append_left _ (Table.contains_iff.mp ?_)
        simp [Table.contains, hl]

end Workspace

/-! ## Resolution -/

/-- A link that does not lead to a value. -/
structure BrokenLink where
  place : Place
  link : Place
  reason : BrokenReason
deriving DecidableEq

/-- What a resolution has found out so far. -/
structure Resolution where
  settled : Table Place FieldInput
  onCycle : List Place
  broken : List BrokenLink

namespace Resolution

def start : Resolution := ⟨.empty, [], []⟩

def settle (s : Resolution) (p : Place) (value : FieldInput) : FieldInput × Resolution :=
  (value, { s with settled := s.settled.insert p value })

def settleBroken (s : Resolution) (p link : Place) (reason : BrokenReason) (own : FieldValue) :
    FieldInput × Resolution :=
  let noted : Resolution := { s with broken := s.broken ++ [⟨p, link, reason⟩] }
  noted.settle p (.broken reason own)

/-- Meets a place that waits on the walk: the places from it on are on a cycle. -/
def meet (s : Resolution) (walk : List Place) (p : Place) : FieldInput × Resolution :=
  (.broken .cycle .blank, { s with onCycle := p :: walk.takeWhile (· ≠ p) ++ s.onCycle })

/-- Why a field is broken whose link leads to a place of a given value, if it is. -/
def brokenReason? (s : Resolution) (p link : Place) (value : FieldInput) : Option BrokenReason :=
  if p ∈ s.onCycle then some .cycle
  else match value with
    | .given _ => none
    | .broken reason _ =>
      if hasOutputPrefix link.name && reason == .targetFailed then some .targetFailed
      else some .upstreamBroken

/-- Settles a linked field once the place behind its link has a value. -/
def settleLinked (s : Resolution) (p link : Place) (own : FieldValue) (value : FieldInput) :
    FieldInput × Resolution :=
  match s.brokenReason? p link value with
  | none => s.settle p value
  | some reason => s.settleBroken p link reason own

/-- Settles an output once the outputs of its module have been computed. -/
def settleOutput (s : Resolution) (p : Place) (value : Option Float) :
    FieldInput × Resolution :=
  match value with
  | none => s.settle p (.broken .targetFailed .blank)
  | some x => s.settle p (if p ∈ s.onCycle then .broken .cycle .blank else .given (.number x))

end Resolution

/-- Resolves names one after the other and stores their values in a table. -/
def gather (resolve : String → Resolution → Except Formula.Crash (FieldInput × Resolution)) :
    List String → Table String FieldInput → Resolution →
      Except Formula.Crash (Table String FieldInput × Resolution)
  | [], values, s => .ok (values, s)
  | name :: rest, values, s => do
    let (value, s) ← resolve name s
    gather resolve rest (values.insert name value) s

namespace Workspace

/-- The value of a place behind a walk of places that wait for it. -/
def resolve (w : Workspace) (book : Pricebook) (walk : List Place) (p : Place)
    (s : Resolution) : Except Formula.Crash (FieldInput × Resolution) :=
  match s.settled.get? p with
  | some value => .ok (value, s)
  | none =>
    if _hw : p ∈ walk then .ok (s.meet walk p)
    else match _hs : w.source p with
      | .stored own => .ok (s.settle p (.given own))
      | .severed reason link own => .ok (s.settleBroken p link reason own)
      | .nowhere => .ok (s.settle p (.broken .missingTarget .blank))
      | .linked link own => do
        let (value, s) ← w.resolve book (p :: walk) link s
        pure (s.settleLinked p link own value)
      | .computed i m o => do
        let (inputs, s) ← gather (fun field s => w.resolve book (p :: walk) ⟨p.instanceId, field⟩ s)
          (m.dependencies o.name.text) i.storedInputs s
        let results ← m.computeOutputs book inputs
        pure (s.settleOutput p ((outputValues results).get? o.key))
termination_by (remaining w.waitingPlaces walk).length
decreasing_by
  all_goals
    exact length_remaining_lt (mem_waitingPlaces (by rw [_hs]; rfl)) _hw (by simp)

/-- The names under which an instance shows values: stored ones, linked ones and those of the
fields of its module.  Names behind the prefix of outputs are left out, also where something is
stored or linked under them. -/
def fieldNames (w : Workspace) (i : Instance) : List String :=
  let declared := match w.moduleTable.get? i.moduleId with
    | some m => m.fields.map (·.name.text)
    | none => []
  ((i.values.keys ++ i.links.keys ++ declared).eraseDups).filter fun n => !hasOutputPrefix n

abbrev FieldInputs := Table String (Table String FieldInput)

/-- Resolves the fields of instances one after the other. -/
def resolveInstances (w : Workspace) (book : Pricebook) :
    List Instance → FieldInputs → Resolution → Except Formula.Crash (FieldInputs × Resolution)
  | [], values, s => .ok (values, s)
  | i :: rest, values, s => do
    let (fields, s) ← gather (fun field s => w.resolve book [] ⟨i.id, field⟩ s)
      (w.fieldNames i) .empty s
    w.resolveInstances book rest (values.insert i.id fields) s

/-- The values of all fields of a workspace, and the broken links in the order in which they are
found. -/
structure Resolved where
  values : FieldInputs
  broken : List BrokenLink

def resolveAll (w : Workspace) (book : Pricebook) : Except Formula.Crash Resolved := do
  let (values, s) ← w.resolveInstances book w.instanceTable.values .empty .start
  pure ⟨values, s.broken⟩

end Workspace

end Costing

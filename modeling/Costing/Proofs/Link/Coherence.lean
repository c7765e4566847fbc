import Costing.Link.Resolution
import Costing.Proofs.Except
import Costing.Proofs.Table
import Mathlib.Logic.Relation

/-! # What a resolution knows

`Coherent` is the invariant of the search that resolves places.  It says of the places on the
walk that none of them has settled, of the places found on a cycle that they really are on one,
and of every settled place that its value is backed by its source: `Backed` has a case for each
source.  A place that is not on a cycle is backed by places that settled before it
(`Resolution.Earlier`), so values can be followed back.

`after_resolve` carries the invariant through the search, and `settled_of_resolveAll` states it
for the whole workspace. -/

namespace Costing

namespace Workspace

/-- Place `p` waits for the value of place `q`. -/
inductive Waits (w : Workspace) (p : Place) : Place → Prop where
  | link {link : Place} {own : FieldValue} (found : w.source p = .linked link own) :
      w.Waits p link
  | dependency {i : Instance} {m : Module} {o : Output} {field : String}
      (found : w.source p = .computed i m o) (member : field ∈ m.dependencies o.name.text) :
      w.Waits p ⟨p.instanceId, field⟩

/-- Each place of a walk waits for the one in front of it, and the first one for `p`. -/
inductive Trail (w : Workspace) : List Place → Place → Prop where
  | start {p : Place} : w.Trail [] p
  | step {first p : Place} {walk : List Place} (waits : w.Waits first p)
      (before : w.Trail walk first) : w.Trail (first :: walk) p

end Workspace

namespace Resolution

/-- Place `q` settled, to the value, before place `p` did. -/
structure Earlier (s : Resolution) (q p : Place) (value : FieldInput) : Prop where
  settled : s.settled.get? q = some value
  before : s.settled.keys.idxOf q < s.settled.keys.idxOf p

/-- The later of two resolutions, as the search goes on. -/
structure Grows (s s' : Resolution) : Prop where
  settled : ∀ {q value}, s.settled.get? q = some value → s'.settled.get? q = some value
  keys : s.settled.keys <+: s'.settled.keys
  marked : ∀ {q}, q ∈ s.onCycle → q ∈ s'.onCycle
  frozen : ∀ {q}, q ∈ s.settled.keys → q ∈ s'.onCycle → q ∈ s.onCycle

theorem mem_keys_of_settled {s : Resolution} {p : Place} {value : FieldInput}
    (settled : s.settled.get? p = some value) : p ∈ s.settled.keys :=
  Table.mem_keys_of_get? settled

theorem Grows.refl (s : Resolution) : Grows s s :=
  ⟨id, List.prefix_rfl, id, fun _ marked => marked⟩

theorem Grows.trans {s s' s'' : Resolution} (first : Grows s s') (second : Grows s' s'') :
    Grows s s'' where
  settled found := second.settled (first.settled found)
  keys := first.keys.trans second.keys
  marked member := second.marked (first.marked member)
  frozen known member := first.frozen known (second.frozen (first.keys.subset known) member)

theorem Earlier.grow {s s' : Resolution} {q p : Place} {value : FieldInput}
    (earlier : s.Earlier q p value) (grows : Grows s s') (known : p ∈ s.settled.keys) :
    s'.Earlier q p value := by
  refine ⟨grows.settled earlier.settled, ?_⟩
  -- the positions of settled places stay, since new ones go to the end
  obtain ⟨more, longer⟩ := grows.keys
  rw [← longer, List.idxOf_append, if_pos (mem_keys_of_settled earlier.settled),
    List.idxOf_append, if_pos known]
  exact earlier.before

/-- Only a settled place stands before another one. -/
theorem exists_settled {s : Resolution} {q p : Place}
    (before : s.settled.keys.idxOf q < s.settled.keys.idxOf p) :
    ∃ value, s.settled.get? q = some value := by
  have known : q ∈ s.settled.keys :=
    List.idxOf_lt_length_iff.mp (Nat.lt_of_lt_of_le before List.idxOf_le_length)
  exact Option.isSome_iff_exists.mp (Table.contains_iff.mpr known)

/-- `s'` is `s` with the value of one more place. -/
structure Settles (s : Resolution) (p : Place) (value : FieldInput) (s' : Resolution) : Prop where
  settled : s'.settled = s.settled.insert p value
  onCycle : s'.onCycle = s.onCycle

section
variable {s s' : Resolution} {p : Place} {value : FieldInput}

theorem Settles.keys (settles : Settles s p value s') (fresh : s.settled.get? p = none) :
    s'.settled.keys = s.settled.keys ++ [p] := by
  have absent : p ∉ s.settled.keys := by
    rw [← Table.contains_iff, Table.contains, fresh]
    exact Bool.false_ne_true
  rw [settles.settled, Table.keys_insert, if_neg absent]

theorem Settles.get?_self (settles : Settles s p value s') :
    s'.settled.get? p = some value := by
  rw [settles.settled, Table.get?_insert, if_pos rfl]

theorem Settles.get?_other (settles : Settles s p value s') {q : Place} (other : p ≠ q) :
    s'.settled.get? q = s.settled.get? q := by
  rw [settles.settled, Table.get?_insert, if_neg other]

theorem Settles.grows (settles : Settles s p value s') (fresh : s.settled.get? p = none) :
    Grows s s' where
  settled {q _} found := by
    have other : p ≠ q := by
      rintro rfl
      rw [fresh] at found
      cases found
    rw [settles.get?_other other, found]
  keys := by
    rw [settles.keys fresh]
    exact List.prefix_append ..
  marked member := settles.onCycle ▸ member
  frozen _ member := settles.onCycle ▸ member

/-- Whatever had settled did so before the place that settles now. -/
theorem Settles.earlier (settles : Settles s p value s') (fresh : s.settled.get? p = none)
    {q : Place} {given : FieldInput} (found : s.settled.get? q = some given) :
    s'.Earlier q p given := by
  refine ⟨(settles.grows fresh).settled found, ?_⟩
  have known := mem_keys_of_settled found
  have absent : p ∉ s.settled.keys := by
    rw [← Table.contains_iff, Table.contains, fresh]
    exact Bool.false_ne_true
  rw [settles.keys fresh, List.idxOf_append, if_pos known, List.idxOf_append, if_neg absent]
  exact Nat.lt_add_left _ (List.idxOf_lt_length_of_mem known)

end

end Resolution

/-! ## The invariant -/

/-- The value of an output that is not on a cycle, once the outputs of its module are
computed. -/
def outputInput : Option Float → FieldInput
  | none => .broken .targetFailed .blank
  | some x => .given (.number x)

/-- Why a field is broken whose link leads to a place broken for a reason. -/
def passedOn (link : Place) (reason : BrokenReason) : BrokenReason :=
  if hasOutputPrefix link.name && reason == .targetFailed then .targetFailed else .upstreamBroken

open Resolution (Earlier Grows Settles)

section
variable (w : Workspace) (book : Pricebook)

/-- The value of a settled place is the one that its source gives. -/
inductive Backed (s : Resolution) (p : Place) : FieldInput → Prop where
  | stored {own : FieldValue} (found : w.source p = .stored own) : Backed s p (.given own)
  | severed {reason : BrokenReason} {link : Place} {own : FieldValue}
      (found : w.source p = .severed reason link own) : Backed s p (.broken reason own)
  | nowhere (found : w.source p = .nowhere) : Backed s p (.broken .missingTarget .blank)
  | loop {link : Place} {own : FieldValue} (found : w.source p = .linked link own)
      (marked : p ∈ s.onCycle) : Backed s p (.broken .cycle own)
  | drawn {link : Place} {own x : FieldValue} (found : w.source p = .linked link own)
      (unmarked : p ∉ s.onCycle) (target : s.Earlier link p (.given x)) : Backed s p (.given x)
  | upstream {link : Place} {own fallback : FieldValue} {reason : BrokenReason}
      (found : w.source p = .linked link own) (unmarked : p ∉ s.onCycle)
      (target : s.Earlier link p (.broken reason fallback)) :
      Backed s p (.broken (passedOn link reason) own)
  | loopOutput {i : Instance} {m : Module} {o : Output} {reason : BrokenReason}
      {fallback : FieldValue} (found : w.source p = .computed i m o) (marked : p ∈ s.onCycle) :
      Backed s p (.broken reason fallback)
  | output {i : Instance} {m : Module} {o : Output} {inputs : Table String FieldInput}
      {results : List OutputResult} (found : w.source p = .computed i m o)
      (unmarked : p ∉ s.onCycle)
      (drawn : ∀ field ∈ m.dependencies o.name.text, ∃ value,
        s.Earlier ⟨p.instanceId, field⟩ p value ∧ inputs.get? field = some value)
      (kept : ∀ field, field ∉ m.dependencies o.name.text →
        inputs.get? field = i.storedInputs.get? field)
      (computed : m.computeOutputs book inputs = .ok results) :
      Backed s p (outputInput ((outputValues results).get? o.key))

/-- What is known behind a walk of waiting places. -/
structure Coherent (walk : List Place) (s : Resolution) : Prop where
  /-- Places that wait have not settled. -/
  apart : ∀ q ∈ walk, s.settled.get? q = none
  /-- Places on cycles wait or have settled. -/
  known : ∀ q ∈ s.onCycle, q ∈ walk ∨ q ∈ s.settled.keys
  loops : ∀ q ∈ s.onCycle, Relation.TransGen w.Waits q q
  /-- From a place on a cycle one gets to another one, and from there back. -/
  onward : ∀ q ∈ s.onCycle, ∃ r ∈ s.onCycle, w.Waits q r ∧ Relation.ReflTransGen w.Waits r q
  backed : ∀ {q value}, s.settled.get? q = some value → Backed w book s q value

/-- What holds once a place has a value. -/
structure After (walk : List Place) (p : Place) (value : FieldInput) (s s' : Resolution) :
    Prop where
  coherent : Coherent w book walk s'
  grows : Grows s s'
  /-- The value is the settled one, unless the place itself waits; then the place that has asked
  for it is on a cycle. -/
  answered : s'.settled.get? p = some value ∨ ∃ first, walk.head? = some first ∧ first ∈ s'.onCycle

/-- What holds once names have been resolved one after the other. -/
structure Gathered (walk : List Place) (place : String → Place) (names : List String)
    (values values' : Table String FieldInput) (s s' : Resolution) : Prop where
  coherent : Coherent w book walk s'
  grows : Grows s s'
  answered : ∀ name ∈ names, ∃ value, values'.get? name = some value ∧
    (s'.settled.get? (place name) = some value ∨
      ∃ first, walk.head? = some first ∧ first ∈ s'.onCycle)
  kept : ∀ name, name ∉ names → values'.get? name = values.get? name

end

variable {w : Workspace} {book : Pricebook}

theorem Backed.grow {s s' : Resolution} {p : Place} {value : FieldInput}
    (backed : Backed w book s p value) (grows : Grows s s') (known : p ∈ s.settled.keys) :
    Backed w book s' p value := by
  cases backed with
  | stored found => exact .stored found
  | severed found => exact .severed found
  | nowhere found => exact .nowhere found
  | loop found marked => exact .loop found (grows.marked marked)
  | drawn found unmarked target =>
    exact .drawn found (mt (grows.frozen known) unmarked) (target.grow grows known)
  | upstream found unmarked target =>
    exact .upstream found (mt (grows.frozen known) unmarked) (target.grow grows known)
  | loopOutput found marked => exact .loopOutput found (grows.marked marked)
  | output found unmarked drawn kept computed =>
    refine .output found (mt (grows.frozen known) unmarked) (fun field member => ?_) kept computed
    obtain ⟨value, earlier, input⟩ := drawn field member
    exact ⟨value, earlier.grow grows known, input⟩

/-- The value of a linked field that is not on a cycle, once its target has one. -/
def linkedInput (link : Place) (own : FieldValue) : FieldInput → FieldInput
  | .given x => .given x
  | .broken reason _ => .broken (passedOn link reason) own

/-- What a source says about the value of a place that has settled. -/
def Source.Gives (book : Pricebook) (s : Resolution) (p : Place) (value : FieldInput) :
    Source → Prop
  | .stored own => value = .given own
  | .severed reason _ own => value = .broken reason own
  | .nowhere => value = .broken .missingTarget .blank
  | .linked link own => p ∈ s.onCycle ∧ value = .broken .cycle own ∨
      p ∉ s.onCycle ∧ ∃ target, s.Earlier link p target ∧ value = linkedInput link own target
  | .computed i m o => p ∈ s.onCycle ∨ ∃ inputs results,
      (∀ field ∈ m.dependencies o.name.text, ∃ input,
        s.Earlier ⟨p.instanceId, field⟩ p input ∧ inputs.get? field = some input) ∧
      (∀ field, field ∉ m.dependencies o.name.text →
        inputs.get? field = i.storedInputs.get? field) ∧
      m.computeOutputs book inputs = .ok results ∧
      value = outputInput ((outputValues results).get? o.key)

section
variable {s : Resolution} {p : Place} {value : FieldInput} (backed : Backed w book s p value)
include backed

theorem Backed.gives : (w.source p).Gives book s p value := by
  cases backed with
  | stored found => rw [found]; rfl
  | severed found => rw [found]; rfl
  | nowhere found => rw [found]; rfl
  | loop found marked => rw [found]; exact .inl ⟨marked, rfl⟩
  | drawn found unmarked target => rw [found]; exact .inr ⟨unmarked, _, target, rfl⟩
  | upstream found unmarked target => rw [found]; exact .inr ⟨unmarked, _, target, rfl⟩
  | loopOutput found marked => rw [found]; exact .inl marked
  | output found _ drawn kept computed =>
    rw [found]
    exact .inr ⟨_, _, drawn, kept, computed, rfl⟩

theorem Backed.of_stored {own : FieldValue} (found : w.source p = .stored own) :
    value = .given own := by
  have gives := backed.gives
  rwa [found] at gives

theorem Backed.of_severed {reason : BrokenReason} {link : Place} {own : FieldValue}
    (found : w.source p = .severed reason link own) : value = .broken reason own := by
  have gives := backed.gives
  rwa [found] at gives

theorem Backed.of_linked {link : Place} {own : FieldValue}
    (found : w.source p = .linked link own) :
    p ∈ s.onCycle ∧ value = .broken .cycle own ∨
      p ∉ s.onCycle ∧ ∃ target, s.Earlier link p target ∧ value = linkedInput link own target := by
  have gives := backed.gives
  rwa [found] at gives

theorem Backed.of_computed {i : Instance} {m : Module} {o : Output}
    (found : w.source p = .computed i m o) (unmarked : p ∉ s.onCycle) :
    ∃ inputs results,
      (∀ field ∈ m.dependencies o.name.text, ∃ input,
        s.Earlier ⟨p.instanceId, field⟩ p input ∧ inputs.get? field = some input) ∧
      (∀ field, field ∉ m.dependencies o.name.text →
        inputs.get? field = i.storedInputs.get? field) ∧
      m.computeOutputs book inputs = .ok results ∧
      value = outputInput ((outputValues results).get? o.key) := by
  have gives := backed.gives
  rw [found] at gives
  exact gives.resolve_left unmarked

end

theorem Coherent.start : Coherent w book [] .start where
  apart := nofun
  known := nofun
  loops := nofun
  onward := nofun
  backed := nofun

/-- A place that has not settled may join the walk. -/
theorem Coherent.push {walk : List Place} {p : Place} {s : Resolution}
    (coherent : Coherent w book walk s) (fresh : s.settled.get? p = none) :
    Coherent w book (p :: walk) s where
  apart q member := by
    obtain rfl | later := List.mem_cons.mp member
    · exact fresh
    · exact coherent.apart q later
  known q member := (coherent.known q member).imp_left (List.mem_cons_of_mem p)
  loops := coherent.loops
  onward := coherent.onward
  backed := coherent.backed

/-- The place at the front of the walk leaves it when it settles. -/
theorem Coherent.settle {walk : List Place} {p : Place} {value : FieldInput}
    {s s' : Resolution} (coherent : Coherent w book (p :: walk) s) (fresh : p ∉ walk)
    (settles : Settles s p value s') (backed : Backed w book s' p value) :
    Coherent w book walk s' := by
  have unsettled := coherent.apart p (.head _)
  have grows := settles.grows unsettled
  refine ⟨fun q member => ?_, fun q member => ?_, ?_, ?_, ?_⟩
  · have other : p ≠ q := fun same => fresh (same ▸ member)
    rw [settles.get?_other other]
    exact coherent.apart q (.tail _ member)
  · rw [settles.onCycle] at member
    rw [settles.keys unsettled]
    obtain waiting | settled := coherent.known q member
    · obtain rfl | later := List.mem_cons.mp waiting
      · exact .inr (List.mem_append_right _ (.head _))
      · exact .inl later
    · exact .inr (List.mem_append_left _ settled)
  · rw [settles.onCycle]
    exact coherent.loops
  · rw [settles.onCycle]
    exact coherent.onward
  · intro q given found
    by_cases same : p = q
    · subst same
      rw [settles.get?_self] at found
      cases found
      exact backed
    · rw [settles.get?_other same] at found
      exact (coherent.backed found).grow grows (Resolution.mem_keys_of_settled found)

/-! ## Meeting a waiting place -/

section
variable {walk : List Place} {p : Place} {s : Resolution}

theorem Workspace.Trail.reaches (trail : w.Trail walk p) {q : Place} (member : q ∈ walk) :
    Relation.TransGen w.Waits q p := by
  induction trail with
  | start => cases member
  | step waits before ih =>
    obtain rfl | later := List.mem_cons.mp member
    · exact .single waits
    · exact (ih later).tail waits

/-- A waiting place leads to the places in front of it on the walk. -/
theorem Workspace.Trail.reaches_front (trail : w.Trail walk p) {q r : Place} (member : q ∈ walk)
    (front : r ∈ walk.takeWhile (· ≠ q)) : Relation.TransGen w.Waits q r := by
  induction trail with
  | start => cases member
  | @step first p walk waits before ih =>
    by_cases same : first = q
    · simp [same] at front
    · have later : q ∈ walk := (List.mem_cons.mp member).resolve_left (Ne.symm same)
      have longer : (first :: walk).takeWhile (· ≠ q) = first :: walk.takeWhile (· ≠ q) := by
        simp [same]
      rw [longer, List.mem_cons] at front
      obtain rfl | front := front
      · exact before.reaches later
      · exact ih later front

/-- From a waiting place, or one in front of it, one step leads further to the front. -/
theorem Workspace.Trail.waits_front (trail : w.Trail walk p) {q r : Place} (member : q ∈ walk)
    (front : r ∈ q :: walk.takeWhile (· ≠ q)) :
    ∃ next ∈ p :: walk.takeWhile (· ≠ q), w.Waits r next := by
  induction trail with
  | start => cases member
  | @step first p walk waits before ih =>
    by_cases same : first = q
    · subst same
      obtain rfl : r = first := by simpa using front
      exact ⟨p, .head _, waits⟩
    · have later : q ∈ walk := (List.mem_cons.mp member).resolve_left (Ne.symm same)
      have longer : (first :: walk).takeWhile (· ≠ q) = first :: walk.takeWhile (· ≠ q) := by
        simp [same]
      rw [longer]
      by_cases here : r = first
      · exact ⟨p, .head _, here ▸ waits⟩
      · have further : r ∈ q :: walk.takeWhile (· ≠ q) := by
          rw [longer, List.mem_cons, List.mem_cons] at front
          exact List.mem_cons.mpr (front.imp_right fun or => or.resolve_left here)
        obtain ⟨next, among, step⟩ := ih later further
        exact ⟨next, .tail _ among, step⟩

theorem mem_onCycle_meet {q : Place} :
    q ∈ (s.meet walk p).2.onCycle ↔ q ∈ p :: walk.takeWhile (· ≠ p) ∨ q ∈ s.onCycle := by
  simp [Resolution.meet, or_assoc]

theorem mem_of_front (waiting : p ∈ walk) {q : Place} (front : q ∈ p :: walk.takeWhile (· ≠ p)) :
    q ∈ walk := by
  obtain rfl | before := List.mem_cons.mp front
  · exact waiting
  · exact (List.takeWhile_prefix _).subset before

theorem after_meet (trail : w.Trail walk p) (waiting : p ∈ walk)
    (coherent : Coherent w book walk s) :
    After w book walk p (s.meet walk p).1 s (s.meet walk p).2 := by
  have grows : Grows s (s.meet walk p).2 := by
    refine ⟨id, List.prefix_rfl, fun marked => mem_onCycle_meet.mpr (.inr marked), ?_⟩
    intro q settled marked
    obtain front | before := mem_onCycle_meet.mp marked
    · -- the new places on a cycle are on the walk, so they have not settled
      have unsettled := coherent.apart q (mem_of_front waiting front)
      rw [← Table.contains_iff, Table.contains, unsettled] at settled
      cases settled
    · exact before
  refine ⟨⟨coherent.apart, fun q marked => ?_, fun q marked => ?_, fun q marked => ?_, ?_⟩,
    grows, .inr ?_⟩
  · obtain front | before := mem_onCycle_meet.mp marked
    · exact .inl (mem_of_front waiting front)
    · exact coherent.known q before
  · obtain front | before := mem_onCycle_meet.mp marked
    · have around := trail.reaches (mem_of_front waiting front)
      obtain rfl | inFront := List.mem_cons.mp front
      · exact around
      · exact around.trans (trail.reaches_front waiting inFront)
    · exact coherent.loops q before
  · obtain front | before := mem_onCycle_meet.mp marked
    · obtain ⟨next, among, step⟩ := trail.waits_front waiting front
      refine ⟨next, mem_onCycle_meet.mpr (.inl among), step, ?_⟩
      -- every place of the walk leads to the place that is met, and so around to the others
      have toMet := trail.reaches (mem_of_front waiting among)
      obtain rfl | inFront := List.mem_cons.mp front
      · exact toMet.to_reflTransGen
      · exact (toMet.trans (trail.reaches_front waiting inFront)).to_reflTransGen
    · obtain ⟨next, among, step, back⟩ := coherent.onward q before
      exact ⟨next, mem_onCycle_meet.mpr (.inr among), step, back⟩
  · intro q value found
    exact (coherent.backed found).grow grows (Resolution.mem_keys_of_settled found)
  · cases walk with
    | nil => cases waiting
    | cons first walk =>
      refine ⟨first, rfl, mem_onCycle_meet.mpr (.inl ?_)⟩
      by_cases same : first = p
      · exact same ▸ .head _
      · rw [List.takeWhile_cons_of_pos (by simpa using same)]
        exact .tail _ (.head _)

end

/-! ## The search -/

section
variable {walk : List Place} {p : Place} {value : FieldInput} {s s' : Resolution}

theorem settles_settle (s : Resolution) (p : Place) (value : FieldInput) :
    Settles s p value (s.settle p value).2 := ⟨rfl, rfl⟩

theorem settles_settleBroken (s : Resolution) (p link : Place) (reason : BrokenReason)
    (own : FieldValue) :
    Settles s p (.broken reason own) (s.settleBroken p link reason own).2 := ⟨rfl, rfl⟩

/-- A place that settles leaves the walk with a value that its source backs. -/
theorem after_settles (coherent : Coherent w book (p :: walk) s) (fresh : p ∉ walk)
    (settles : Settles s p value s') (backed : Backed w book s' p value) :
    After w book walk p value s s' :=
  ⟨coherent.settle fresh settles backed, settles.grows (coherent.apart p (.head _)),
    .inl settles.get?_self⟩

theorem After.trans {before : Resolution} (after : After w book walk p value s s')
    (grows : Grows before s) : After w book walk p value before s' :=
  ⟨after.coherent, grows.trans after.grows, after.answered⟩

theorem After.settled_of_unmarked {waiting : Place}
    (after : After w book (waiting :: walk) p value s s') (unmarked : waiting ∉ s'.onCycle) :
    s'.settled.get? p = some value := by
  obtain settled | ⟨first, atFront, marked⟩ := after.answered
  · exact settled
  · cases atFront
    exact absurd marked unmarked

theorem after_settleLinked {link : Place} {own : FieldValue}
    (found : w.source p = .linked link own) (fresh : p ∉ walk)
    (after : After w book (p :: walk) link value s s') :
    After w book walk p (s'.settleLinked p link own value).1 s
      (s'.settleLinked p link own value).2 := by
  have unsettled := after.coherent.apart p (.head _)
  refine After.trans ?_ after.grows
  -- whether the place is on a cycle is known once its target has a value
  by_cases marked : p ∈ s'.onCycle
  · have step : s'.settleLinked p link own value = s'.settleBroken p link .cycle own := by
      simp [Resolution.settleLinked, Resolution.brokenReason?, marked]
    rw [step]
    exact after_settles after.coherent fresh (settles_settleBroken ..) (.loop found marked)
  · have target := after.settled_of_unmarked marked
    cases value with
    | given x =>
      have step : s'.settleLinked p link own (.given x) = s'.settle p (.given x) := by
        simp [Resolution.settleLinked, Resolution.brokenReason?, marked]
      rw [step]
      exact after_settles after.coherent fresh (settles_settle ..)
        (.drawn found marked ((settles_settle ..).earlier unsettled target))
    | broken reason fallback =>
      have why : s'.brokenReason? p link (.broken reason fallback) =
          some (passedOn link reason) := by
        simp only [Resolution.brokenReason?, marked, if_false, passedOn]
        split <;> rfl
      rw [Resolution.settleLinked, why]
      exact after_settles after.coherent fresh (settles_settleBroken ..)
        (.upstream found marked ((settles_settleBroken ..).earlier unsettled target))

theorem gathered_of_gather {place : String → Place} {names : List String}
    {resolve : String → Resolution → Except Formula.Crash (FieldInput × Resolution)}
    {values values' : Table String FieldInput}
    (each : ∀ name s value s', resolve name s = .ok (value, s') → name ∈ names →
      Coherent w book walk s → After w book walk (place name) value s s')
    (coherent : Coherent w book walk s)
    (run : gather resolve names values s = .ok (values', s')) :
    Gathered w book walk place names values values' s s' := by
  induction names generalizing values s with
  | nil =>
    cases run
    exact ⟨coherent, .refl _, nofun, fun _ _ => rfl⟩
  | cons name names ih =>
    obtain ⟨⟨value, middle⟩, first, rest⟩ := bind_eq_ok_iff.mp run
    have after := each name _ value middle first (.head _) coherent
    have further := ih (fun n s v s' ran member => each n s v s' ran (.tail _ member))
      after.coherent rest
    refine ⟨further.coherent, after.grows.trans further.grows, fun n member => ?_,
      fun n absent => ?_⟩
    · by_cases later : n ∈ names
      · exact further.answered n later
      · obtain rfl := (List.mem_cons.mp member).resolve_right later
        refine ⟨value, ?_, ?_⟩
        · rw [further.kept n later, Table.get?_insert, if_pos rfl]
        · exact after.answered.imp further.grows.settled
            fun ⟨first, atFront, marked⟩ => ⟨first, atFront, further.grows.marked marked⟩
    · rw [List.mem_cons, not_or] at absent
      rw [further.kept n absent.2, Table.get?_insert, if_neg (Ne.symm absent.1)]

theorem after_settleOutput {i : Instance} {m : Module} {o : Output}
    {inputs : Table String FieldInput} {results : List OutputResult}
    (found : w.source p = .computed i m o) (fresh : p ∉ walk)
    (gathered : Gathered w book (p :: walk) (Place.mk p.instanceId)
      (m.dependencies o.name.text) i.storedInputs inputs s s')
    (computed : m.computeOutputs book inputs = .ok results) :
    After w book walk p (s'.settleOutput p ((outputValues results).get? o.key)).1 s
      (s'.settleOutput p ((outputValues results).get? o.key)).2 := by
  have unsettled := gathered.coherent.apart p (.head _)
  refine After.trans ?_ gathered.grows
  by_cases marked : p ∈ s'.onCycle
  · cases value : (outputValues results).get? o.key with
    | none =>
      exact after_settles gathered.coherent fresh (settles_settle ..) (.loopOutput found marked)
    | some x =>
      have step : s'.settleOutput p (some x) = s'.settle p (.broken .cycle .blank) := by
        simp [Resolution.settleOutput, marked]
      rw [step]
      exact after_settles gathered.coherent fresh (settles_settle ..) (.loopOutput found marked)
  · have step : s'.settleOutput p ((outputValues results).get? o.key) =
        s'.settle p (outputInput ((outputValues results).get? o.key)) := by
      cases (outputValues results).get? o.key with
      | none => rfl
      | some x => simp [Resolution.settleOutput, marked, outputInput]
    rw [step]
    refine after_settles gathered.coherent fresh (settles_settle ..)
      (.output found marked (fun field member => ?_) gathered.kept computed)
    -- a dependency that still waits would have put the output on a cycle
    obtain ⟨value, input, settled | ⟨first, atFront, loops⟩⟩ := gathered.answered field member
    · exact ⟨value, (settles_settle ..).earlier unsettled settled, input⟩
    · cases atFront
      exact absurd loops marked

theorem after_resolve (run : w.resolve book walk p s = .ok (value, s'))
    (trail : w.Trail walk p) (coherent : Coherent w book walk s) :
    After w book walk p value s s' := by
  fun_induction Workspace.resolve w book walk p s generalizing value s' with
  | case1 walk p s known settled =>
    cases run
    exact ⟨coherent, .refl s, .inl settled⟩
  | case2 walk p s unsettled waiting =>
    cases run
    exact after_meet trail waiting coherent
  | case3 walk p s unsettled fresh own found =>
    cases run
    exact after_settles (coherent.push unsettled) fresh (settles_settle ..) (.stored found)
  | case4 walk p s unsettled fresh reason link own found =>
    cases run
    exact after_settles (coherent.push unsettled) fresh (settles_settleBroken ..) (.severed found)
  | case5 walk p s unsettled fresh found =>
    cases run
    exact after_settles (coherent.push unsettled) fresh (settles_settle ..) (.nowhere found)
  | case6 walk p s unsettled fresh link own found ih =>
    obtain ⟨⟨drawn, middle⟩, ran, result⟩ := bind_eq_ok_iff.mp run
    obtain ⟨rfl, rfl⟩ := Prod.ext_iff.mp (Except.ok.inj result)
    exact after_settleLinked found fresh
      (ih ran (.step (.link found) trail) (coherent.push unsettled))
  | case7 walk p s unsettled fresh i m o found ih =>
    obtain ⟨⟨inputs, middle⟩, gathered, rest⟩ := bind_eq_ok_iff.mp run
    obtain ⟨results, computed, result⟩ := bind_eq_ok_iff.mp rest
    obtain ⟨rfl, rfl⟩ := Prod.ext_iff.mp (Except.ok.inj result)
    refine after_settleOutput found fresh (gathered_of_gather ?_ (coherent.push unsettled) gathered)
      computed
    intro field s value s' ran member coherent
    exact ih field s ran (.step (.dependency found member) trail) coherent

end

/-! ## The whole workspace -/

/-- The value of a place in a resolved workspace. -/
def Workspace.Resolved.value? (r : Workspace.Resolved) (p : Place) : Option FieldInput :=
  (r.values.get? p.instanceId).bind (·.get? p.name)

/-- A resolved workspace shows a value for a place. -/
def Workspace.Reports (w : Workspace) (p : Place) : Prop :=
  ∃ i ∈ w.instances, i.id = p.instanceId ∧ p.name ∈ w.fieldNames i

theorem Workspace.mem_fieldNames {i : Instance} {name : String} :
    name ∈ w.fieldNames i ↔ (name ∈ i.values.keys ∨ name ∈ i.links.keys ∨
      ∃ m, w.moduleTable.get? i.moduleId = some m ∧ ∃ f ∈ m.fields, f.name.text = name) ∧
      hasOutputPrefix name = false := by
  rw [fieldNames, List.mem_filter, List.mem_eraseDups, List.mem_append, List.mem_append, or_assoc]
  cases w.moduleTable.get? i.moduleId <;> simp

/-- A place on a cycle is broken once no place waits any more. -/
theorem Coherent.broken_of_marked {s : Resolution} (coherent : Coherent w book [] s) {p : Place}
    (marked : p ∈ s.onCycle) : ∃ reason own, s.settled.get? p = some (.broken reason own) := by
  have known := (coherent.known p marked).resolve_left List.not_mem_nil
  obtain ⟨value, settled⟩ := Option.isSome_iff_exists.mp (Table.contains_iff.mpr known)
  obtain ⟨next, _, waits, _⟩ := coherent.onward p marked
  cases coherent.backed settled with
  | stored found =>
    cases waits with
    | link other => rw [found] at other; cases other
    | dependency other => rw [found] at other; cases other
  | severed found => exact ⟨_, _, settled⟩
  | nowhere found => exact ⟨_, _, settled⟩
  | loop found _ => exact ⟨_, _, settled⟩
  | drawn found unmarked _ => exact absurd marked unmarked
  | upstream found unmarked _ => exact ⟨_, _, settled⟩
  | loopOutput found _ => exact ⟨_, _, settled⟩
  | output found unmarked _ _ _ => exact absurd marked unmarked

theorem settled_of_resolveInstances {instances : List Instance}
    {values values' : Workspace.FieldInputs} {s s' : Resolution}
    (distinct : (instances.map (·.id)).Nodup) (coherent : Coherent w book [] s)
    (run : w.resolveInstances book instances values s = .ok (values', s')) :
    Coherent w book [] s' ∧ Grows s s' ∧
    (∀ i ∈ instances, ∃ fields, values'.get? i.id = some fields ∧
      (∀ name ∈ w.fieldNames i, ∃ value, fields.get? name = some value ∧
        s'.settled.get? ⟨i.id, name⟩ = some value) ∧
      ∀ name, name ∉ w.fieldNames i → fields.get? name = none) ∧
    ∀ id, id ∉ instances.map (·.id) → values'.get? id = values.get? id := by
  induction instances generalizing values s with
  | nil =>
    cases run
    exact ⟨coherent, .refl _, nofun, fun _ _ => rfl⟩
  | cons i instances ih =>
    rw [List.map_cons, List.nodup_cons] at distinct
    obtain ⟨⟨fields, middle⟩, first, rest⟩ := bind_eq_ok_iff.mp run
    have gathered : Gathered w book [] (Place.mk i.id) (w.fieldNames i) .empty fields s middle :=
      gathered_of_gather (fun _ _ _ _ ran _ coherent => after_resolve ran .start coherent)
        coherent first
    obtain ⟨coherent', grows, shown, kept⟩ := ih distinct.2 gathered.coherent rest
    refine ⟨coherent', gathered.grows.trans grows, fun j member => ?_, fun id absent => ?_⟩
    · obtain rfl | later := List.mem_cons.mp member
      · refine ⟨fields, ?_, fun name named => ?_, fun name unnamed => ?_⟩
        · rw [kept _ distinct.1, Table.get?_insert, if_pos rfl]
        · obtain ⟨value, found, settled | ⟨waiting, atFront, _⟩⟩ := gathered.answered name named
          · exact ⟨value, found, grows.settled settled⟩
          · cases atFront
        · rw [gathered.kept name unnamed, Table.get?_empty]
      · exact shown j later
    · rw [List.map_cons, List.mem_cons, not_or] at absent
      rw [kept id absent.2, Table.get?_insert, if_neg (Ne.symm absent.1)]

/-- A resolved workspace shows settled values, and shows them for the fields of its instances. -/
theorem settled_of_run (distinct : (w.instances.map (·.id)).Nodup)
    {r : Workspace.Resolved} {s : Resolution}
    (run : w.resolveInstances book w.instances .empty .start = .ok (r.values, s)) :
    Coherent w book [] s ∧
      (∀ p, w.Reports p → ∃ value, r.value? p = some value ∧ s.settled.get? p = some value) ∧
      ∀ p, ¬w.Reports p → r.value? p = none := by
  obtain ⟨coherent, _, shown, kept⟩ := settled_of_resolveInstances distinct .start run
  refine ⟨coherent, ?_, ?_⟩
  · rintro ⟨_, name⟩ ⟨i, member, rfl, named⟩
    obtain ⟨fields, found, settled, _⟩ := shown i member
    obtain ⟨value, input, same⟩ := settled name named
    exact ⟨value, by simp [Workspace.Resolved.value?, found, input], same⟩
  · rintro ⟨id, name⟩ hidden
    by_cases present : id ∈ w.instances.map (·.id)
    · obtain ⟨i, member, rfl⟩ := List.mem_map.mp present
      obtain ⟨fields, found, _, absent⟩ := shown i member
      have unnamed : name ∉ w.fieldNames i := fun named => hidden ⟨i, member, rfl, named⟩
      simp [Workspace.Resolved.value?, found, absent name unnamed]
    · simp [Workspace.Resolved.value?, kept id present]

theorem run_of_resolveAll (distinct : (w.instances.map (·.id)).Nodup)
    {r : Workspace.Resolved} (run : w.resolveAll book = .ok r) :
    ∃ s, w.resolveInstances book w.instances .empty .start = .ok (r.values, s) ∧
      r.broken = s.broken := by
  obtain ⟨⟨values, s⟩, ran, result⟩ := bind_eq_ok_iff.mp run
  cases result
  rw [Workspace.instanceTable, Table.values_indexBy distinct] at ran
  exact ⟨s, ran, rfl⟩

theorem settled_of_resolveAll (distinct : (w.instances.map (·.id)).Nodup)
    {r : Workspace.Resolved} (run : w.resolveAll book = .ok r) :
    ∃ s, Coherent w book [] s ∧
      (∀ p, w.Reports p → ∃ value, r.value? p = some value ∧ s.settled.get? p = some value) ∧
      ∀ p, ¬w.Reports p → r.value? p = none := by
  obtain ⟨s, ran, _⟩ := run_of_resolveAll distinct run
  exact ⟨s, settled_of_run distinct ran⟩

end Costing

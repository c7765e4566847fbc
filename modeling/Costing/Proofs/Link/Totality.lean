import Costing.Proofs.Formula.Extremum
import Costing.Proofs.Link.Coherence

/-! # When a resolution ends without a crash

The search ends on every graph of places; a crash can only come from an output that is computed
on the way.  `Calm.exists_resolve` therefore needs a set of places which the search does not
leave and whose outputs do not crash: `Workspace.Calm`.  That a whole resolution ends follows
from the places that it reports, one by one (`exists_resolveAll`). -/

namespace Costing

/-- An expression that does not crash with a price book, whatever the values in its scope. -/
def CalmExpression (book : Pricebook) (expression : String) : Prop :=
  ∀ s : Formula.Scope, s.book = book → Formula.evaluate s expression ≠ .crash

section
variable {book : Pricebook}

/-- A name has a number or a fault. -/
theorem calm_of_name {expression name : String}
    (named : (Formula.Tree.parse expression).toOption.bind Formula.Tree.name? = some name) :
    CalmExpression book expression := by
  intro s _ crashed
  obtain ⟨t, parsed, meets⟩ := Formula.evaluate_eq_crash_iff.mp crashed
  rw [parsed] at named
  cases t with
  | name n => exact Formula.not_meets_name meets
  | _ => cases named

theorem calm_of_asks (bodies : book.AsksNoLoneExtremum) {expression : String}
    (asks : Formula.asksLoneExtremum expression = false) : CalmExpression book expression := by
  rintro s rfl crashed
  exact Formula.not_meets_of_asks bodies asks (Formula.evaluate_eq_crash_iff.mp crashed)

theorem settled_of_calm {expression : String} (calm : CalmExpression book expression)
    {s : Formula.Scope} (same : s.book = book) :
    ∃ result, (Formula.evaluate s expression).settled = .ok result := by
  cases outcome : Formula.evaluate s expression with
  | value x => exact ⟨.ok x, rfl⟩
  | fault f => exact ⟨.error f, rfl⟩
  | crash => exact absurd outcome (calm s same)

theorem exists_computeBehind {base : Formula.Scope} (same : base.book = book)
    {done : List OutputResult} {outputs : List Output}
    (calm : ∀ o ∈ outputs, CalmExpression book o.expression) :
    ∃ results, computeBehind base done outputs = .ok results := by
  induction outputs generalizing done with
  | nil => exact ⟨done, rfl⟩
  | cons o outputs ih =>
    obtain ⟨result, settled⟩ :=
      settled_of_calm (s := base.extend (visibleValues done)) (calm o (.head _)) same
    obtain ⟨results, rest⟩ := ih fun o' member => calm o' (.tail _ member)
    exact ⟨results, bind_eq_ok_iff.mpr ⟨_, bind_eq_ok_iff.mpr ⟨result, settled, rfl⟩, rest⟩⟩

theorem exists_computeOutputs {m : Module}
    (calm : ∀ o ∈ m.outputs, CalmExpression book o.expression) (inputs : Table String FieldInput) :
    ∃ results, m.computeOutputs book inputs = .ok results :=
  exists_computeBehind rfl calm

end

/-- From a known state a computation ends, again in a known state. -/
def Proceeds (known : Resolution → Prop)
    (step : Resolution → Except Formula.Crash (FieldInput × Resolution)) : Prop :=
  ∀ s, known s → ∃ value s', step s = .ok (value, s') ∧ known s'

section
variable {known : Resolution → Prop}

/-- Names are resolved one after the other as long as each of them is. -/
theorem exists_gather {names : List String}
    {resolve : String → Resolution → Except Formula.Crash (FieldInput × Resolution)}
    (each : ∀ name ∈ names, Proceeds known (resolve name)) (values : Table String FieldInput)
    {s : Resolution} (start : known s) :
    ∃ values' s', gather resolve names values s = .ok (values', s') ∧ known s' := by
  induction names generalizing values s with
  | nil => exact ⟨_, _, rfl, start⟩
  | cons name names ih =>
    obtain ⟨value, middle, first, reached⟩ := each name (.head _) s start
    obtain ⟨values', s', rest, last⟩ :=
      ih (fun n member => each n (.tail _ member)) (values.insert name value) reached
    exact ⟨values', s', bind_eq_ok_iff.mpr ⟨_, first, rest⟩, last⟩

namespace Workspace

variable {w : Workspace} {book : Pricebook}

theorem exists_resolveInstances {instances : List Instance}
    (each : ∀ i ∈ instances, ∀ name ∈ w.fieldNames i,
      Proceeds known (w.resolve book [] ⟨i.id, name⟩)) (values : FieldInputs) {s : Resolution}
    (start : known s) :
    ∃ values' s', w.resolveInstances book instances values s = .ok (values', s') := by
  induction instances generalizing values s with
  | nil => exact ⟨_, _, rfl⟩
  | cons i instances ih =>
    obtain ⟨fields, middle, first, reached⟩ := exists_gather (each i (.head _)) .empty start
    obtain ⟨values', s', rest⟩ :=
      ih (fun j member => each j (.tail _ member)) (values.insert i.id fields) reached
    exact ⟨values', s', bind_eq_ok_iff.mpr ⟨_, first, rest⟩⟩

variable (known) in
theorem exists_resolveAll (distinct : (w.instances.map (·.id)).Nodup)
    (each : ∀ p, w.Reports p → Proceeds known (w.resolve book [] p)) (start : known .start) :
    ∃ r, w.resolveAll book = .ok r := by
  obtain ⟨values, s, ran⟩ : ∃ values s,
      w.resolveInstances book w.instances .empty .start = .ok (values, s) :=
    exists_resolveInstances
      (fun i placed name named => each ⟨i.id, name⟩ ⟨i, placed, rfl, named⟩) .empty start
  rw [← Table.values_indexBy distinct] at ran
  exact ⟨_, bind_eq_ok_iff.mpr ⟨_, ran, rfl⟩⟩

end Workspace

end

namespace Workspace

/-- Places that wait for no others than themselves, and whose outputs do not crash. -/
structure Calm (w : Workspace) (book : Pricebook) (inside : Place → Prop) : Prop where
  onward : ∀ {p q}, inside p → w.Waits p q → inside q
  computed : ∀ {p i m o}, inside p → w.source p = .computed i m o →
    ∀ inputs, ∃ results, m.computeOutputs book inputs = .ok results

section
variable {w : Workspace} {book : Pricebook} {inside : Place → Prop} (calm : w.Calm book inside)
include calm

theorem Calm.exists_resolve {walk : List Place} {p : Place} {s : Resolution} (here : inside p) :
    ∃ value s', w.resolve book walk p s = .ok (value, s') := by
  fun_induction Workspace.resolve w book walk p s with
  | case6 walk p s _ _ link own found ih =>
    obtain ⟨value, s', ran⟩ := ih (calm.onward here (.link found))
    exact ⟨_, _, bind_eq_ok_iff.mpr ⟨_, ran, rfl⟩⟩
  | case7 walk p s _ _ i m o found ih =>
    have each : ∀ field ∈ m.dependencies o.name.text,
        Proceeds (fun _ => True) (w.resolve book (p :: walk) ⟨p.instanceId, field⟩) := by
      intro field member s _
      obtain ⟨value, s', ran⟩ := ih field s (calm.onward here (.dependency found member))
      exact ⟨value, s', ran, trivial⟩
    obtain ⟨inputs, s', gathered, _⟩ := exists_gather each i.storedInputs trivial
    obtain ⟨results, ran⟩ := calm.computed here found inputs
    exact ⟨_, _, bind_eq_ok_iff.mpr ⟨_, gathered, bind_eq_ok_iff.mpr ⟨results, ran, rfl⟩⟩⟩
  | _ => exact ⟨_, _, rfl⟩

theorem Calm.exists_resolveAll (distinct : (w.instances.map (·.id)).Nodup)
    (reported : ∀ p, w.Reports p → inside p) : ∃ r, w.resolveAll book = .ok r := by
  refine Workspace.exists_resolveAll (fun _ => True) distinct (fun p reports s _ => ?_) trivial
  obtain ⟨value, s', ran⟩ := calm.exists_resolve (reported p reports)
  exact ⟨value, s', ran, trivial⟩

end

end Workspace

end Costing

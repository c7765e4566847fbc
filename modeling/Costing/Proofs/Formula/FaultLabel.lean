import Costing.Proofs.FaultWording
import Costing.Proofs.Formula.FaultOrigin
import Costing.Proofs.Formula.FunctionDepth

/-! # The label of a fault

A fault that leaves the call of a shared function is labelled with the name of the function, and it
keeps its label on the way through the calls further out.  Whether a call goes by the wording of the
fault or by what the fault remembers comes to the same, since nothing that an evaluation says of its
own accord begins like a label (`Machine.State.Raises.unlabelled`).

`Arises` says, in terms of the machine of `Costing.Proofs.Formula.SmallStep`, where the cause of a
fault arises and which frames wait there; `fault_is_labelled_once` reads the label off these
frames. -/

namespace Costing

namespace Formula

/-! ## Frames of calls -/

namespace Machine

/-- The shared function whose call is going on in a frame: its arguments are bound or its body is
open. -/
def Frame.call? : Frame → Option SharedFunction
  | .argument (.shared g) _ _ _ | .body g => some g
  | _ => none

/-- The innermost call of a shared function that is going on. -/
def innermostCall? (frames : List Frame) : Option SharedFunction := frames.findSome? Frame.call?

/-- The report of a fault outside some frames, as each call on the way out makes it from the
wording. -/
def labelledBy (frames : List Frame) (r : FaultReport) : FaultReport :=
  (frames.filterMap Frame.call?).foldl (fun r g => r.labelled g.name.text) r

theorem Frame.mark_fault (frame : Frame) (f : Fault) : frame.mark (.fault f) =
    .fault (match frame.call? with
      | some g => f.within g.name.text
      | none => f) := by
  cases frame with
  | argument callee => cases callee <;> rfl
  | _ => rfl

theorem Frame.fault_of_mark {frame : Frame} {a : Abort} {f : Fault}
    (marked : frame.mark a = .fault f) : ∃ g, a = .fault g ∧ g.cause = f.cause := by
  cases frame with
  | argument callee =>
    cases callee with
    | builtin => exact ⟨f, marked, rfl⟩
    | shared => exact fault_of_within marked
  | body => exact fault_of_within marked
  | sign | left | right => exact ⟨f, marked, rfl⟩

theorem markAll_of_during (frames : List Frame) (cause : Cause) (g : String) :
    State.markAll frames (.fault ⟨cause, some g⟩) = .fault ⟨cause, some g⟩ := by
  induction frames with
  | nil => rfl
  | cons frame frames ih =>
    rw [State.markAll, List.foldl_cons, Frame.mark_fault]
    cases frame.call? <;> exact ih

/-- Behind some frames a fault remembers the innermost call in them. -/
theorem markAll_ofCause (frames : List Frame) (cause : Cause) :
    State.markAll frames (.ofCause cause) =
      .fault ⟨cause, (innermostCall? frames).map (·.name.text)⟩ := by
  induction frames with
  | nil => rfl
  | cons frame frames ih =>
    rw [State.markAll, List.foldl_cons, Abort.ofCause, Frame.mark_fault, innermostCall?,
      List.findSome?_cons]
    cases frame.call? with
    | none => exact ih
    | some g => exact markAll_of_during frames cause g.name.text

/-- The wording of a report tells as much of the calls as the fault remembers. -/
theorem report_of_markAll {frames : List Frame} {f f' : Fault}
    (unlabelled : ¬ IsLabelled f.cause.message)
    (marked : State.markAll frames (.fault f) = .fault f') :
    f'.report = labelledBy frames f.report := by
  induction frames generalizing f with
  | nil =>
    cases marked
    rfl
  | cons frame frames ih =>
    rw [State.markAll, List.foldl_cons, Frame.mark_fault] at marked
    rw [labelledBy, List.filterMap_cons]
    cases called : frame.call? with
    | none =>
      rw [called] at marked
      exact ih unlabelled marked
    | some g =>
      rw [called] at marked
      -- the mark keeps the cause, so its wording does not mislead the calls further out either
      have same : (f.within g.name.text).cause = f.cause := f.cause_within g.name.text
      rw [List.foldl_cons, f.report_labelled unlabelled]
      exact ih (same ▸ unlabelled) marked

/-! ## Where faults arise -/

namespace State

/-- A cause arises at a state, and the frames wait for what failed.  The frames of a call that is
not made are those around it. -/
inductive Raises (limit : Nat) : State → List Frame → Cause → Prop where
  | name {s : Scope} {n : String} {under : List Frame} {cause : Cause}
      (unresolved : s.resolve n = .error cause) :
      Raises limit ⟨.tree (.name n) s, under⟩ under cause
  /-- There is nothing to call by the name, or it takes another number of arguments. -/
  | call {s : Scope} {function : String} {args : List Tree} {under : List Frame} {cause : Cause}
      (uncalled : callee s function args.length (Tree.call function args).source = .error cause) :
      Raises limit ⟨.tree (.call function args) s, under⟩ under cause
  /-- As many bodies are open as may be. -/
  | limit {m : State} {g : SharedFunction} (called : m.calls? = some g) (full : m.bodies = limit) :
      Raises limit m m.frames (.evaluation (.tooManyBodies g.name.text))
  | operator {op : Operator} {x y : Float} {source : String} {under : List Frame} {cause : Cause}
      (failed : op.apply x y source = .error (.ofCause cause)) :
      Raises limit ⟨.result (.ok y), .right op x source :: under⟩ under cause
  | builtin {s : Scope} {f : Builtin} {xs : List Float} {source : String} {under : List Frame}
      {cause : Cause} (failed : callBuiltin f xs source = .error (.ofCause cause)) :
      Raises limit ⟨.arguments (.builtin f source) xs [] s, under⟩ under cause
  /-- The body that has been opened has no tree. -/
  | body {s : Scope} {g : SharedFunction} {xs : List Float} {fault : SyntaxFault}
      {under : List Frame} (unparsed : Tree.parse g.formula = .error fault) :
      Raises limit ⟨.arguments (.shared g) xs [] s, under⟩ (.body g :: under) (.malformed fault)

variable {limit : Nat} {s : Scope} {m n : State} {under frames : List Frame} {cause : Cause}

theorem ne_arity_of_resolve {name : String} (unresolved : s.resolve name = .error cause)
    (f : ArityFault) : cause ≠ .arity f := by
  rintro rfl
  cases expression?_of_resolve unresolved

theorem clashes_of_callee {function source : String} {count : Nat}
    (uncalled : callee s function count source = .error cause) :
    ClashesWithLabel cause.message := by
  unfold callee at uncalled
  split at uncalled
  · split at uncalled <;> cases uncalled
    exact clashes_builtin ..
  · split at uncalled
    · split at uncalled <;> cases uncalled
      exact clashes_shared ..
    · cases uncalled
      exact Cause.clashes (by simp)

theorem clashes_of_apply {op : Operator} {x y : Float} {source : String}
    (failed : op.apply x y source = .error (.ofCause cause)) : ClashesWithLabel cause.message := by
  cases op with
  | divide | power =>
    simp only [Operator.apply] at failed
    split at failed <;> cases failed
    exact Cause.clashes (by simp)
  | _ => cases failed

theorem clashes_of_callBuiltin {f : Builtin} {xs : List Float} {source : String}
    (failed : callBuiltin f xs source = .error (.ofCause cause)) :
    ClashesWithLabel cause.message := by
  unfold callBuiltin at failed
  split at failed <;> cases failed
  · exact Cause.clashes nofun
  · exact clashes_builtin ..

/-- Nothing that is said of a cause by itself begins like a label. -/
theorem Raises.unlabelled (raises : m.Raises limit frames cause) :
    ¬ IsLabelled cause.message := by
  have clashes : ClashesWithLabel cause.message := by
    cases raises with
    | name unresolved => exact Cause.clashes (ne_arity_of_resolve unresolved)
    | call uncalled => exact clashes_of_callee uncalled
    | limit | body => exact Cause.clashes nofun
    | operator failed => exact clashes_of_apply failed
    | builtin failed => exact clashes_of_callBuiltin failed
  exact clashes.1

/-! ### Steps to faults -/

/-- A state has failed and is on its way out. -/
def Failed (m : State) : Prop := ∃ a, m.focus = .result (.error a)

theorem not_failed_of_raises (raises : m.Raises limit frames cause) : ¬ m.Failed := by
  rintro ⟨a, failed⟩
  cases raises with
  | limit called _ =>
    obtain ⟨_, _, _, focus, _⟩ := exists_call_of_calls called
    cases failed.symm.trans focus
  | _ => cases failed

theorem raises_of_visit {t : Tree} {f : Fault}
    (step : (State.mk (.tree t s) frames).Step ⟨.result (.error (.fault f)), under⟩) :
    .fault f = Abort.ofCause f.cause ∧
      (State.mk (.tree t s) frames).Raises limit under f.cause := by
  cases t with
  | number | negate | binary => cases step
  | name n =>
    obtain ⟨result, rfl⟩ := State.mk.inj (Option.some.inj step)
    obtain ⟨cause, unresolved, made⟩ := mapError_eq_error_iff.mp (Focus.result.inj result)
    cases made
    exact ⟨rfl, .name unresolved⟩
  | call function args =>
    have visited := Option.some.inj step
    rw [visit] at visited
    cases uncalled : callee s function args.length (Tree.call function args).source with
    | error cause =>
      rw [uncalled] at visited
      cases visited
      exact ⟨rfl, .call uncalled⟩
    | ok c =>
      rw [uncalled] at visited
      cases visited

theorem raises_of_apply {c : Callee} {xs : List Float} {f : Fault}
    (step : (State.mk (.arguments c xs [] s) frames).Step ⟨.result (.error (.fault f)), under⟩) :
    .fault f = Abort.ofCause f.cause ∧
      (State.mk (.arguments c xs [] s) frames).Raises limit under f.cause := by
  cases c with
  | builtin b source =>
    obtain ⟨result, rfl⟩ := State.mk.inj (Option.some.inj step)
    have failed := Focus.result.inj result
    obtain ⟨own, -⟩ := quotes_of_callBuiltin failed f rfl
    exact ⟨own, .builtin (own ▸ failed)⟩
  | shared g =>
    obtain ⟨opened, rfl⟩ := State.mk.inj (Option.some.inj step)
    rw [Focus.ofFormula] at opened
    cases unparsed : Tree.parse g.formula with
    | error fault =>
      rw [unparsed] at opened
      cases opened
      exact ⟨rfl, .body unparsed⟩
    | ok t =>
      rw [unparsed] at opened
      cases opened

theorem raises_of_resume {frame : Frame} {x : Float} {f : Fault}
    (step : (State.mk (.result (.ok x)) (frame :: frames)).Step
      ⟨.result (.error (.fault f)), under⟩) :
    .fault f = Abort.ofCause f.cause ∧
      (State.mk (.result (.ok x)) (frame :: frames)).Raises limit under f.cause := by
  cases frame with
  | sign | left | argument | body => cases step
  | right op y source =>
    obtain ⟨result, rfl⟩ := State.mk.inj (Option.some.inj step)
    have failed := Focus.result.inj result
    obtain ⟨own, -⟩ := quotes_of_apply failed f rfl
    exact ⟨own, .operator (own ▸ failed)⟩

/-- A step to a failed state passes a failure on or raises a fault, or else crashes. -/
theorem passes_or_raises {a : Abort}
    (step : m.Step ⟨.result (.error a), under⟩) :
    (∃ frame b, m = ⟨.result (.error b), frame :: under⟩ ∧ frame.mark b = a) ∨
      ∀ f, a = .fault f → a = .ofCause f.cause ∧ m.Raises limit under f.cause := by
  -- only a state that has failed already passes a failure on; in the others the step makes one
  obtain ⟨focus, frames⟩ := m
  cases focus with
  | tree t s =>
    right
    rintro f rfl
    exact raises_of_visit step
  | arguments c xs rest s =>
    right
    rintro f rfl
    cases rest with
    | cons arg rest => cases step
    | nil => exact raises_of_apply step
  | result r =>
    cases frames with
    | nil => cases r <;> cases step
    | cons frame frames =>
      cases r with
      | error b =>
        left
        cases step
        exact ⟨frame, b, rfl, rfl⟩
      | ok x =>
        right
        rintro f rfl
        exact raises_of_resume step

/-! ### Runs to faults -/

theorem Failed.of_reaches (failed : m.Failed) (run : m.ReachesWithin limit n) : n.Failed := by
  induction run with
  | refl => exact failed
  | @tail n next _ step failed =>
    obtain ⟨a, focus⟩ := failed
    obtain ⟨_, frames⟩ := n
    cases focus
    -- each step takes the failure out of one frame, and there is none from the last state
    cases frames with
    | nil => cases step.1
    | cons frame frames =>
      cases step.1
      exact ⟨frame.mark a, rfl⟩

/-- What raises a fault fails in its next step, if it takes one at all. -/
theorem Raises.failed_of_step (raises : m.Raises limit frames cause)
    (step : m.StepWithin limit n) : n.Failed := by
  obtain ⟨step, free⟩ := step
  cases raises with
  | name unresolved =>
    cases step
    exact ⟨.ofCause cause, by simp only [visit, unresolved]; rfl⟩
  | call uncalled =>
    cases step
    exact ⟨.ofCause cause, by simp [visit, uncalled]⟩
  | limit called full => exact absurd ⟨by simp [called], full⟩ free
  | operator failed | builtin failed =>
    cases step
    exact ⟨.ofCause cause, congrArg Focus.result failed⟩
  | @body _ g _ fault _ unparsed =>
    cases step
    exact ⟨.ofCause (.malformed fault), by simp [apply, Focus.ofFormula, unparsed]⟩

/-- A state raises one fault. -/
theorem Raises.unique {frames' : List Frame} {cause' : Cause}
    (first : m.Raises limit frames cause) (second : m.Raises limit frames' cause') :
    frames = frames' ∧ cause = cause' := by
  cases first with
  | name unresolved =>
    cases second with
    | name unresolved' => exact ⟨rfl, Except.error.inj (unresolved.symm.trans unresolved')⟩
    | limit called _ => cases called
  | call uncalled =>
    cases second with
    | call uncalled' => exact ⟨rfl, Except.error.inj (uncalled.symm.trans uncalled')⟩
    | limit called _ => simp [calls?, uncalled] at called
  | limit called _ =>
    cases second with
    | name => cases called
    | call uncalled => simp [calls?, uncalled] at called
    | limit called' _ =>
      obtain rfl := Option.some.inj (called.symm.trans called')
      exact ⟨rfl, rfl⟩
    | operator | builtin | body => cases called
  | operator failed =>
    cases second with
    | limit called _ => cases called
    | operator failed' =>
      cases failed.symm.trans failed'
      exact ⟨rfl, rfl⟩
  | builtin failed =>
    cases second with
    | limit called _ => cases called
    | builtin failed' =>
      cases failed.symm.trans failed'
      exact ⟨rfl, rfl⟩
  | body unparsed =>
    cases second with
    | limit called _ => cases called
    | body unparsed' =>
      cases unparsed.symm.trans unparsed'
      exact ⟨rfl, rfl⟩

/-- The last state before a failure, or the last one altogether. -/
structure IsLast (limit : Nat) (m : State) : Prop where
  sound : ¬ m.Failed
  fails : ∀ n, m.StepWithin limit n → n.Failed

theorem Raises.isLast (raises : m.Raises limit frames cause) : m.IsLast limit :=
  ⟨not_failed_of_raises raises, fun _ => raises.failed_of_step⟩

theorem not_failed_of_ok {x : Float} : ¬Failed ⟨.result (.ok x), frames⟩ := by
  rintro ⟨a, failed⟩
  cases failed

theorem isLast_of_ok {x : Float} : IsLast limit ⟨.result (.ok x), []⟩ where
  sound := not_failed_of_ok
  fails n step := by cases step.1

theorem IsLast.eq_of_reaches (last : m.IsLast limit) (last' : n.IsLast limit)
    (run : m.ReachesWithin limit n) : m = n := by
  obtain same | ⟨next, step, rest⟩ := run.cases_head
  · exact same
  · exact absurd ((last.fails next step).of_reaches rest) last'.sound

theorem IsLast.unique {o : State} (first : m.IsLast limit) (second : n.IsLast limit)
    (run : o.ReachesWithin limit m) (run' : o.ReachesWithin limit n) : m = n := by
  have single : Relator.RightUnique (StepWithin limit) := fun _ _ _ step step' =>
    step_unique step.1 step'.1
  -- one of the two runs goes on where the other one ends
  obtain onward | back := Relation.ReflTransGen.total_of_right_unique single run run'
  · exact first.eq_of_reaches second onward
  · exact (second.eq_of_reaches first back).symm

end State

end Machine

open Machine

/-- In the evaluation of a formula a cause arises, and the frames wait for what failed. -/
inductive Arises (s : Scope) (formula : String) : List Frame → Cause → Prop where
  /-- The formula has no tree. -/
  | malformed {fault : SyntaxFault} (unparsed : Tree.parse formula = .error fault) :
      Arises s formula [] (.malformed fault)
  | raised {m : State} {frames : List Frame} {cause : Cause}
      (run : (State.start s formula).ReachesWithin s.bodiesLeft m)
      (raises : m.Raises s.bodiesLeft frames cause) : Arises s formula frames cause
  /-- The formula has a number that is not finite. -/
  | notFinite {x : Float}
      (run : (State.start s formula).ReachesWithin s.bodiesLeft ⟨.result (.ok x), []⟩)
      (infinite : x.isFinite = false) : Arises s formula [] (.evaluation (.notFinite formula))

namespace Arises

variable {s : Scope} {formula : String} {frames frames' : List Frame} {cause cause' : Cause}

theorem unlabelled (arises : Arises s formula frames cause) : ¬ IsLabelled cause.message := by
  cases arises with
  | malformed => exact (Cause.clashes (fun _ => Cause.noConfusion)).1
  | raised _ raises => exact raises.unlabelled
  | notFinite => exact (Cause.clashes (fun _ => Cause.noConfusion)).1

/-- A run from a formula without a tree has failed from the start. -/
theorem parsed_of_sound {m : State} {fault : SyntaxFault}
    (run : (State.start s formula).ReachesWithin s.bodiesLeft m) (sound : ¬ m.Failed) :
    Tree.parse formula ≠ .error fault := by
  intro unparsed
  have failed : (State.start s formula).Failed :=
    ⟨.ofCause (.malformed fault), by simp [State.start, Focus.ofFormula, unparsed]⟩
  exact sound (failed.of_reaches run)

theorem not_raises_of_ok {limit : Nat} {x : Float} :
    ¬ State.Raises limit ⟨.result (.ok x), []⟩ frames cause := by
  rintro (_ | _ | ⟨called, _⟩)
  cases called

/-- A fault arises at one place. -/
theorem unique (first : Arises s formula frames cause) (second : Arises s formula frames' cause') :
    frames = frames' ∧ cause = cause' := by
  cases first with
  | malformed unparsed =>
    cases second with
    | malformed unparsed' =>
      cases unparsed.symm.trans unparsed'
      exact ⟨rfl, rfl⟩
    | raised run raises => exact absurd unparsed (parsed_of_sound run raises.isLast.sound)
    | notFinite run =>
      exact absurd unparsed (parsed_of_sound run State.not_failed_of_ok)
  | raised run raises =>
    cases second with
    | malformed unparsed => exact absurd unparsed (parsed_of_sound run raises.isLast.sound)
    | raised run' raises' =>
      obtain rfl := raises.isLast.unique raises'.isLast run run'
      exact raises.unique raises'
    | notFinite run' =>
      obtain rfl := raises.isLast.unique State.isLast_of_ok run run'
      exact absurd raises not_raises_of_ok
  | notFinite run =>
    cases second with
    | malformed unparsed =>
      exact absurd unparsed (parsed_of_sound run State.not_failed_of_ok)
    | raised run' raises =>
      obtain rfl := State.isLast_of_ok.unique raises.isLast run run'
      exact absurd raises not_raises_of_ok
    | notFinite => exact ⟨rfl, rfl⟩

/-- A run that has failed has come from the place where the fault arose. -/
theorem of_failed {n : State} {f : Fault} {under : List Frame}
    (run : (State.start s formula).ReachesWithin s.bodiesLeft n)
    (failed : n = ⟨.result (.error (.fault f)), under⟩) :
    ∃ inner, Arises s formula (inner ++ under) f.cause ∧
      State.markAll inner (.ofCause f.cause) = .fault f := by
  induction run generalizing f under with
  | refl =>
    obtain ⟨opened, rfl⟩ := State.mk.inj failed
    rw [Focus.ofFormula] at opened
    cases unparsed : Tree.parse formula with
    | error fault =>
      rw [unparsed] at opened
      cases opened
      exact ⟨[], .malformed unparsed, rfl⟩
    | ok t =>
      rw [unparsed] at opened
      cases opened
  | @tail m n run step ih =>
    subst failed
    obtain ⟨frame, b, rfl, marked⟩ | raised := State.passes_or_raises step.1
    · -- the failure comes out of a frame, which may have marked it
      obtain ⟨g, rfl, same⟩ := Frame.fault_of_mark marked
      obtain ⟨inner, arises, whole⟩ := ih rfl
      refine ⟨inner ++ [frame], by simpa [same] using arises, ?_⟩
      rw [State.markAll, List.foldl_append, ← same]
      rw [State.markAll] at whole
      rw [whole]
      exact marked
    · obtain ⟨own, raises⟩ := raised f rfl
      exact ⟨[], .raised run raises, own.symm⟩

end Arises

/-- Whatever a formula fails with has arisen at some place in its evaluation, or says that the room
was not enough. -/
theorem arises_of_fault {s : Scope} {formula : String} {f : Fault}
    (failed : evaluate s formula = .fault f) (roomy : f.cause ≠ .evaluation (.outOfRoom formula)) :
    ∃ frames, Arises s formula frames f.cause ∧
      State.markAll frames (.ofCause f.cause) = .fault f := by
  obtain ⟨r, settles⟩ := exists_settles_text (exists_settles s.bodiesLeft) s formula
  have settled : evaluateText s.bodiesLeft s formula Settings.evaluationRoom = r := by
    refine (settles.only _).resolve_left fun exhausted => roomy ?_
    rw [evaluate_eq_ofResult, exhausted] at failed
    cases failed
    rfl
  rw [evaluate_eq_ofResult, settled] at failed
  have ends := run_of_settles settles
  cases r with
  | ok x =>
    rw [Outcome.ofResult] at failed
    split at failed
    · cases failed
    · next infinite =>
      cases failed
      cases ends with
      | result run => exact ⟨[], .notFinite run (by simpa using infinite), rfl⟩
      | refused _ _ _ _ refused => cases refused
  | error a =>
    cases a with
    | fault g =>
      cases failed
      cases ends with
      | result run => simpa using Arises.of_failed run rfl
      | @refused m g inner run frames called full refused =>
        -- the fault is the refusal of the call
        rw [State.refusal] at refused
        have marked := Except.error.inj refused
        rw [markAll_ofCause] at marked
        cases marked
        rw [List.append_nil] at frames
        subst frames
        exact ⟨m.frames, .raised run (.limit called full), markAll_ofCause ..⟩
    | loneExtremum => cases failed
    | exhausted => exact absurd rfl settles.genuine

/-- Room aside, a formula that fails has come to one cause at one place, where some frames wait.
The fault that leaves the formula is of the kind and has the subject of that cause.  If no shared
function is binding its arguments or running its body there, its wording is that of the cause.
Otherwise the label of the innermost such call stands in front of it, once: the wording of the cause
itself does not begin like a label, and what leaves the formula is what the calls make of it one
after the other by its wording. -/
theorem fault_is_labelled_once {s : Scope} {formula : String} {f : Fault}
    (failed : evaluate s formula = .fault f) (roomy : f.cause ≠ .evaluation (.outOfRoom formula)) :
    ∃ frames cause, Arises s formula frames cause ∧
      (∀ frames' cause', Arises s formula frames' cause' → frames' = frames ∧ cause' = cause) ∧
      f.kind = cause.kind ∧ f.subject = cause.subject ∧
      f.message = (match innermostCall? frames with
        | none => cause.message
        | some g => "Error evaluating function " ++ named g.name.text ++ ": " ++ cause.message) ∧
      ¬ IsLabelled cause.message ∧
      f.report = labelledBy frames ⟨cause.kind, cause.message, cause.subject⟩ := by
  obtain ⟨frames, arises, marked⟩ := arises_of_fault failed roomy
  refine ⟨frames, f.cause, arises, fun _ _ other => other.unique arises, rfl, rfl, ?_,
    arises.unlabelled, report_of_markAll (f := { cause := f.cause }) arises.unlabelled marked⟩
  rw [markAll_ofCause] at marked
  rw [← Abort.fault.inj marked, Fault.message]
  cases innermostCall? frames <;> rfl

/-- A shared function of one parameter `amount`. -/
def functionOfAmount (name : VariableName) (formula : String) : SharedFunction where
  id := none
  name := name
  description := none
  category := none
  parameters := [⟨⟨"amount", by decide⟩, "", none, none, true⟩]
  formula := formula
  distinct := by simp

/-- The body of one function calls another with an argument that has no value at zero. -/
def nestedScope : Scope where
  book := .ofLists [] []
    [functionOfAmount ⟨"outer", by decide⟩ "inner(1 / amount)",
      functionOfAmount ⟨"inner", by decide⟩ "amount + 1"]
  values := .empty
  depth := 0

/-- The report of the fault that an evaluation ends in, if it ends in one. -/
def report? : Except Abort Float → Option FaultReport
  | .error (.fault f) => some f.report
  | _ => none

theorem exists_fault_of_report? {r : Except Abort Float} {report : FaultReport}
    (told : report? r = some report) : ∃ f, r = .error (.fault f) ∧ f.report = report := by
  unfold report? at told
  split at told
  · exact ⟨_, rfl, Option.some.inj told⟩
  · cases told

/-- The fault arises while the inner function binds its argument, in the body of the outer one. -/
theorem fault_is_labelled_once_nested :
    ∃ f frames cause, evaluate nestedScope "2 * outer(0)" = .fault f ∧
      f.message = "Error evaluating function 'inner': Division by zero in '1 / amount'" ∧
      Arises nestedScope "2 * outer(0)" frames cause ∧ f.subject = cause.subject ∧
      f.report = labelledBy frames ⟨cause.kind, cause.message, cause.subject⟩ := by
  have told : report? (evaluateText nestedScope.bodiesLeft nestedScope "2 * outer(0)"
        Settings.evaluationRoom) =
      some ⟨.evaluation,
        "Error evaluating function 'inner': Division by zero in '1 / amount'",
        some "1 / amount"⟩ := by decide +kernel
  obtain ⟨f, result, report⟩ := exists_fault_of_report? told
  have failed : evaluate nestedScope "2 * outer(0)" = .fault f := by
    rw [evaluate_eq_ofResult, result]
    rfl
  have roomy : f.cause ≠ .evaluation (.outOfRoom "2 * outer(0)") := by
    intro exhausted
    have quoted : f.cause.subject = some "1 / amount" := congrArg FaultReport.subject report
    rw [exhausted] at quoted
    exact absurd quoted (by decide)
  obtain ⟨frames, cause, arises, -, -, subject, -, -, labelled⟩ :=
    fault_is_labelled_once failed roomy
  exact ⟨f, frames, cause, failed, congrArg FaultReport.message report, arises, subject, labelled⟩

end Formula

end Costing

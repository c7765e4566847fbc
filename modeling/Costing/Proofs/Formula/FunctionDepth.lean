import Costing.Proofs.Formula.SmallStep

/-! # The limit on open bodies

A shared function is not called while as many bodies are open as the limit allows.  The machine of
`Costing.Proofs.Formula.SmallStep` knows no such limit, so its run says what a formula would come
to without one: if the run never comes to a call at the limit, the formula comes to the same with
the limit, and otherwise the first such call is refused (`depth_limit_exact`).

The call is refused before its arguments are evaluated, hence also if the body would never have
been opened because an argument fails (`depth_limit_before_arguments`).

What is open around the trees and calls that a state has yet to evaluate is kept track of by a
`Condition` on them.  One condition shows that no run within the limit has more bodies open, and
another that calls inside the arguments of calls do not count: the limit is never met if the
functions are ranked above the functions that they call, and no rank reaches it. -/

namespace Costing.Formula

namespace Machine

/-! ## Conditions on what is still to be evaluated -/

/-- What is asked of the trees and of the calls that a state has yet to evaluate, by the number of
bodies that are open around them. -/
structure Condition where
  tree : Nat → Scope → Tree → Prop
  call : Nat → Scope → Callee → Prop

namespace Condition

variable (c : Condition)

def OfFrame (bodies : Nat) : Frame → Prop
  | .left _ _ operand s => c.tree bodies s operand
  | .argument callee _ rest s => c.call bodies s callee ∧ ∀ t ∈ rest, c.tree bodies s t
  | .body g => ∃ s, c.call bodies s (.shared g)
  | .sign | .right _ _ _ => True

def OfFrames : List Frame → Prop
  | [] => True
  | frame :: under => c.OfFrame (openBodies under) frame ∧ OfFrames under

def OfFocus (bodies : Nat) : Focus → Prop
  | .tree t s => c.tree bodies s t
  | .arguments callee _ rest s => c.call bodies s callee ∧ ∀ t ∈ rest, c.tree bodies s t
  | .result _ => True

def Holds (m : State) : Prop := c.OfFocus m.bodies m.focus ∧ c.OfFrames m.frames

/-- A condition that is handed down to the parts of a tree, to the calls that the limit admits and
to the bodies that they open. -/
structure Kept (limit : Nat) : Prop where
  child : ∀ bodies s t child, c.tree bodies s t → child ∈ t.children → c.tree bodies s child
  call : ∀ bodies s function args source callee, c.tree bodies s (.call function args) →
    Machine.callee s function args.length source = .ok callee →
    (∀ g, callee = .shared g → bodies ≠ limit) → c.call bodies s callee
  body : ∀ bodies s g t arguments, c.call bodies s (.shared g) → Tree.parse g.formula = .ok t →
    c.tree (bodies + 1) (s.forBody arguments) t

variable {c} {limit : Nat}

theorem ofFocus_ofFormula {bodies : Nat} {s : Scope} {formula : String}
    (each : ∀ t, Tree.parse formula = .ok t → c.tree bodies s t) :
    c.OfFocus bodies (.ofFormula s formula) := by
  unfold Focus.ofFormula
  cases parsed : Tree.parse formula with
  | error fault => trivial
  | ok t => exact each t parsed

variable {m n : State} {under : List Frame}

theorem holds_visit (kept : c.Kept limit) {s : Scope} {t : Tree}
    (free : ¬ State.AtLimit limit ⟨.tree t s, under⟩) (tree : c.tree (openBodies under) s t)
    (frames : c.OfFrames under) : c.Holds (State.visit s under t) := by
  cases t with
  | number text | name n => exact ⟨trivial, frames⟩
  | negate operand => exact ⟨kept.child _ _ _ _ tree (.head _), trivial, frames⟩
  | binary op left right =>
    exact ⟨kept.child _ _ _ _ tree (.head _), kept.child _ _ _ _ tree (.tail _ (.head _)), frames⟩
  | call function args =>
    cases called : callee s function args.length (Tree.call function args).source with
    | error cause =>
      simp only [State.visit, called]
      exact ⟨trivial, frames⟩
    | ok callee =>
      simp only [State.visit, called]
      refine ⟨⟨kept.call _ _ _ _ _ _ tree called ?_, fun arg member =>
        kept.child _ _ _ _ tree member⟩, frames⟩
      rintro g rfl full
      exact free ⟨by simp [State.calls?, called], full⟩

/-- Behind a call stand its arguments, and then what its body opens. -/
theorem holds_apply (kept : c.Kept limit) {s : Scope} {callee : Callee} {values : List Float}
    (call : c.call (openBodies under) s callee) (frames : c.OfFrames under) :
    c.Holds (State.apply values s under callee) := by
  cases callee with
  | builtin f source => exact ⟨trivial, frames⟩
  | shared g =>
    refine ⟨?_, ⟨s, call⟩, frames⟩
    have opened : openBodies (.body g :: under) = openBodies under + 1 :=
      List.countP_cons_of_pos rfl
    show c.OfFocus (openBodies (.body g :: under)) _
    rw [opened]
    exact ofFocus_ofFormula fun t parsed => kept.body _ _ _ _ _ call parsed

theorem holds_resume {frame : Frame} {x : Float} (frames : c.OfFrames (frame :: under)) :
    c.Holds (frame.resume x under) := by
  obtain ⟨own, frames⟩ := frames
  cases frame with
  | sign | right | body => exact ⟨trivial, frames⟩
  | left op source operand s => exact ⟨own, trivial, frames⟩
  | argument callee values rest s => exact ⟨own, frames⟩

/-- A step within the limit keeps a condition. -/
theorem holds_of_step (kept : c.Kept limit) (step : m.StepWithin limit n) (holds : c.Holds m) :
    c.Holds n := by
  obtain ⟨step, free⟩ := step
  obtain ⟨focus, frames⟩ := m
  obtain ⟨own, others⟩ := holds
  cases focus with
  | tree t s =>
    cases step
    exact holds_visit kept free own others
  | arguments callee values rest s =>
    cases rest with
    | nil =>
      cases step
      exact holds_apply kept own.1 others
    | cons arg rest =>
      cases step
      obtain ⟨first, rest⟩ := List.forall_mem_cons.mp own.2
      exact ⟨first, ⟨own.1, rest⟩, others⟩
  | result r =>
    cases frames with
    | nil => cases r <;> cases step
    | cons frame under =>
      cases r <;> cases step
      · exact ⟨trivial, others.2⟩
      · exact holds_resume others

theorem holds_of_reachesWithin (kept : c.Kept limit) (run : m.ReachesWithin limit n)
    (holds : c.Holds m) : c.Holds n := by
  induction run with
  | refl => exact holds
  | tail _ step ih => exact holds_of_step kept step ih

end Condition

/-! ## Within the limit -/

/-- As many bodies are open as the limit allows, and one less where another is to be opened. -/
def boundedBy (limit : Nat) : Condition where
  tree bodies _ _ := bodies ≤ limit
  call bodies _ callee := ∀ g, callee = .shared g → bodies < limit

theorem boundedBy_kept (limit : Nat) : (boundedBy limit).Kept limit where
  child _ _ _ _ fits _ := fits
  call _ _ _ _ _ _ fits _ free g shared := Nat.lt_of_le_of_ne fits (free g shared)
  body _ _ g _ _ fits _ := fits g rfl

theorem openBodies_le {limit : Nat} {frames : List Frame}
    (bounded : (boundedBy limit).OfFrames frames) : openBodies frames ≤ limit := by
  induction frames with
  | nil => exact Nat.zero_le _
  | cons frame under ih =>
    obtain ⟨own, others⟩ := bounded
    cases frame with
    | body g =>
      obtain ⟨_, fewer⟩ := own
      rw [openBodies, List.countP_cons_of_pos rfl]
      exact fewer g rfl
    | _ => exact ih others

namespace State

variable {limit : Nat} {m n : State}

/-- A run either keeps to the limit or comes to a call at the limit. -/
theorem within_or_atLimit (run : m.Reaches n) : m.ReachesWithin limit n ∨
    ∃ o, m.Reaches o ∧ o.AtLimit limit ∧ o.Reaches n := by
  induction run with
  | refl => exact .inl .refl
  | @tail n next run step ih =>
    obtain within | ⟨o, reached, full, rest⟩ := ih
    · by_cases full : n.AtLimit limit
      · exact .inr ⟨n, run, full, .single step⟩
      · exact .inl (within.tail ⟨step, full⟩)
    · exact .inr ⟨o, reached, full, rest.tail step⟩

theorem bodies_le_of_reachesWithin {s : Scope} {formula : String}
    (run : (start s formula).ReachesWithin limit n) : n.bodies ≤ limit := by
  have holds : (boundedBy limit).Holds (start s formula) :=
    ⟨Condition.ofFocus_ofFormula fun _ _ => Nat.zero_le _, trivial⟩
  exact openBodies_le (Condition.holds_of_reachesWithin (boundedBy_kept limit) run holds).2

end State

/-! ## Functions in ranks -/

/-- The shared functions that a tree calls are of lower ranks. -/
def CallsBelow (rank : String → Nat) (bound : Nat) (t : Tree) : Prop :=
  ∀ call ∈ t.calls, Builtin.ofName? call.1 = none → rank call.1 < bound

/-- Every function is ranked above the functions that its body calls. -/
def Ranks (rank : String → Nat) (book : Pricebook) : Prop :=
  ∀ name g t, book.functions.get? name = some g → Tree.parse g.formula = .ok t →
    CallsBelow rank (rank name) t

/-- The open bodies and those that a tree or a call may open come to less than the limit. -/
def ranked (rank : String → Nat) (book : Pricebook) (limit : Nat) : Condition where
  tree bodies s t := s.book = book ∧
    ∀ call ∈ t.calls, Builtin.ofName? call.1 = none → rank call.1 + bodies < limit
  call bodies s callee := s.book = book ∧ ∀ g, callee = .shared g → ∃ name,
    book.functions.get? name = some g ∧ rank name + bodies < limit

theorem ranked_kept {rank : String → Nat} {book : Pricebook} (ranks : Ranks rank book)
    (limit : Nat) : (ranked rank book limit).Kept limit where
  child bodies s t child fits under := by
    refine ⟨fits.1, fun call called => fits.2 call ?_⟩
    simp only [Tree.calls, List.mem_filterMap] at called ⊢
    obtain ⟨node, member, same⟩ := called
    exact ⟨node, Tree.mem_nodes_of_child under member, same⟩
  call bodies s function args source callee fits called _ := by
    refine ⟨fits.1, ?_⟩
    rintro g rfl
    obtain ⟨shared, registered, -⟩ := callee_eq_shared_iff.mp called
    refine ⟨function, fits.1 ▸ registered, fits.2 (function, args) ?_ shared⟩
    exact List.mem_filterMap.mpr ⟨_, Tree.self_mem_nodes _, rfl⟩
  body bodies s g t arguments fits parsed := by
    refine ⟨fits.1, fun call called shared => ?_⟩
    obtain ⟨name, registered, lower⟩ := fits.2 g rfl
    -- one more body is open, and what it calls is at least one rank lower
    have below := ranks name g t registered parsed call called shared
    omega

theorem exists_call_of_calls {m : State} {g : SharedFunction} (calls : m.calls? = some g) :
    ∃ function args s, m.focus = .tree (.call function args) s ∧
      Builtin.ofName? function = none := by
  unfold State.calls? at calls
  split at calls
  · split at calls
    · next called => exact ⟨_, _, _, rfl, (callee_eq_shared_iff.mp called).1⟩
    · cases calls
  · cases calls

theorem not_atLimit_of_ranked {rank : String → Nat} {book : Pricebook} {limit : Nat} {m : State}
    (holds : (ranked rank book limit).Holds m) : ¬ m.AtLimit limit := by
  rintro ⟨calls, full⟩
  obtain ⟨g, calls⟩ := Option.isSome_iff_exists.mp calls
  obtain ⟨function, args, s, focus, shared⟩ := exists_call_of_calls calls
  have fits := holds.1
  rw [focus] at fits
  have lower := fits.2 (function, args) (List.mem_filterMap.mpr ⟨_, Tree.self_mem_nodes _, rfl⟩)
    shared
  omega

/-- Where functions are ranked, no more bodies are open inside one another than the formula's own
calls have ranks, however deep these stand in the arguments of one another. -/
theorem not_atLimit_of_ranks {rank : String → Nat} {s : Scope} {formula : String} {limit : Nat}
    (ranks : Ranks rank s.book) (below : ∀ t, Tree.parse formula = .ok t → CallsBelow rank limit t)
    {m : State} (run : (State.start s formula).Reaches m) : ¬ m.AtLimit limit := by
  have holds : (ranked rank s.book limit).Holds m := by
    induction run with
    | refl => exact ⟨Condition.ofFocus_ofFormula fun t parsed => ⟨rfl, below t parsed⟩, trivial⟩
    | tail _ step holds =>
      exact Condition.holds_of_step (ranked_kept ranks limit) ⟨step, not_atLimit_of_ranked holds⟩
        holds
  exact not_atLimit_of_ranked holds

end Machine

/-! ## Formulas -/

/-- What becomes of the result of an evaluation. -/
def Outcome.ofResult (formula : String) : Except Abort Float → Outcome
  | .ok x => if x.isFinite then .value x else .fault { cause := .evaluation (.notFinite formula) }
  | .error (.fault f) => .fault f
  | .error .loneExtremum => .crash
  | .error .exhausted => .fault { cause := .evaluation (.outOfRoom formula) }

theorem evaluate_eq_ofResult (s : Scope) (formula : String) : evaluate s formula =
    Outcome.ofResult formula (evaluateText s.bodiesLeft s formula Settings.evaluationRoom) := by
  unfold evaluate evaluateText
  cases Tree.parse formula <;> rfl

open Machine

/-- A formula runs to its result unless a call is refused. -/
theorem run_of_settles {limit : Nat} {s : Scope} {formula : String} {r : Except Abort Float}
    (settles : Settles (evaluateText limit s formula) r) :
    (State.start s formula).Ends limit [] r := by
  obtain ⟨genuine, -, least, enough⟩ := settles
  have same := enough least (Nat.le_refl _)
  rw [← same]
  exact ends_ofFormula (follows limit s) (Nat.add_zero _) (same ▸ genuine)

theorem not_atLimit_of_run {limit : Nat} {s : Scope} {formula : String} {r : Except Abort Float}
    (run : (State.start s formula).ReachesWithin limit ⟨.result r, []⟩) {m : State}
    (reached : (State.start s formula).Reaches m) : ¬ m.AtLimit limit := by
  have ended : (State.mk (.result r) []).step = none := by cases r <;> rfl
  obtain rfl | ⟨_, step, _⟩ := (State.passes_of_reaches run ended reached).cases_head
  · exact State.not_atLimit_of_free rfl
  · exact step.2

/-- Outside the bodies of functions, and room aside, the evaluation of a formula comes to a result.
If the run without the limit never comes to a call of a shared function while as many bodies are
open as the limit allows, it ends, and with the same result.  Otherwise the result is the refusal of
the first such call, whose arguments are not evaluated; and no run opens more bodies without having
come to such a call.  Calls in the arguments of calls do not count: if the functions are ranked
above those that their bodies call, then only the ranks of the functions that the formula calls have
to be below the limit. -/
theorem depth_limit_exact (s : Scope) (outermost : s.depth = 0) (formula : String) :
    ∃ r, Settles (evaluateText Settings.maxFunctionDepth s formula) r ∧
      (evaluate s formula = .ofResult formula r ∨
        evaluate s formula = .fault { cause := .evaluation (.outOfRoom formula) }) ∧
      ((∀ m, (State.start s formula).Reaches m → ¬ m.AtLimit Settings.maxFunctionDepth) ∧
          (State.start s formula).Reaches ⟨.result r, []⟩ ∨
        ∃ m g, (State.start s formula).ReachesWithin Settings.maxFunctionDepth m ∧
          m.calls? = some g ∧ m.bodies = Settings.maxFunctionDepth ∧
          r = .error (State.markAll m.frames (State.refusal g))) ∧
      (∀ m, (State.start s formula).Reaches m → Settings.maxFunctionDepth < m.bodies →
        ∃ n, (State.start s formula).Reaches n ∧ n.AtLimit Settings.maxFunctionDepth ∧
          n.Reaches m) ∧
      (∀ rank : String → Nat, Ranks rank s.book →
        (∀ t, Tree.parse formula = .ok t → CallsBelow rank Settings.maxFunctionDepth t) →
        ∀ m, (State.start s formula).Reaches m → ¬ m.AtLimit Settings.maxFunctionDepth) := by
  obtain ⟨r, settles⟩ := exists_settles_text (exists_settles Settings.maxFunctionDepth) s formula
  refine ⟨r, settles, ?_, ?_, fun m run many => ?_, fun rank ranks below m =>
    not_atLimit_of_ranks ranks below⟩
  · have left : s.bodiesLeft = Settings.maxFunctionDepth := by
      rw [Scope.bodiesLeft, outermost, Nat.sub_zero]
    rw [evaluate_eq_ofResult, left]
    obtain exhausted | same := settles.only Settings.evaluationRoom
    · exact .inr (by rw [exhausted]; rfl)
    · exact .inl (by rw [same])
  -- up to the first call at the limit, the run within the limit is the run without it
  · cases run_of_settles settles with
    | result run =>
      exact .inl ⟨fun m => not_atLimit_of_run run, State.reaches_of_within run⟩
    | @refused m g inner run frames called full refused =>
      rw [List.append_nil] at frames
      exact .inr ⟨m, g, run, called, full, frames ▸ refused⟩
  · refine (State.within_or_atLimit run).resolve_left fun within => ?_
    exact absurd (State.bodies_le_of_reachesWithin within) (Nat.not_le.mpr many)

/-- A scope with one shared function of a parameter `y`. -/
def scopeOfFunction (name : VariableName) (formula : String) : Scope :=
  { book := .ofLists [] [] [
      { id := none
        name := name
        description := none
        category := none
        parameters := [⟨⟨"y", by decide⟩, "", none, none, true⟩]
        formula := formula
        distinct := by simp }]
    values := .empty
    depth := 0 }

/-- A function that is called in its own argument, more often than bodies may be open. -/
def doubled : String :=
  "d(d(d(d(d(d(d(d(d(d(d(d(d(d(d(d(d(d(d(d(d(d(d(d(d(d(d(d(d(d(d(d(d(d(1" ++
    "))))))))))))))))))))))))))))))))))"

def doublingScope : Scope := scopeOfFunction ⟨"d", by decide⟩ "2 * y"

/-- The function opens one body after the other, however deep its calls stand in arguments. -/
theorem depth_limit_exact_doubled :
    ∃ r, Settles (evaluateText Settings.maxFunctionDepth doublingScope doubled) r ∧
      (State.start doublingScope doubled).Reaches ⟨.result r, []⟩ ∧
      ∀ m, (State.start doublingScope doubled).Reaches m →
        m.bodies ≤ Settings.maxFunctionDepth := by
  obtain ⟨r, settles, -, run, opened, ranks⟩ := depth_limit_exact doublingScope rfl doubled
  have plain : ((Tree.parse "2 * y").map (·.calls.isEmpty)).toOption = some true := by
    decide +kernel
  have never := ranks (fun _ => 0) ?_ fun _ _ _ _ _ => Nat.succ_pos _
  · refine ⟨r, settles, ?_, fun m reached => ?_⟩
    · obtain ⟨-, ended⟩ | ⟨m, g, reached, called, full, -⟩ := run
      · exact ended
      · exact absurd ⟨by simp [called], full⟩ (never m (State.reaches_of_within reached))
    · refine Nat.le_of_not_lt fun many => ?_
      obtain ⟨n, before, full, -⟩ := opened m reached many
      exact never n before full
  · -- the body of the function calls nothing
    intro name g t registered parsed call called
    obtain ⟨member, -⟩ := Table.mem_of_get?_indexBy registered
    simp only [List.mem_singleton] at member
    subst member
    obtain ⟨u, read, empty⟩ := exists_ok_of_check plain
    cases parsed.symm.trans read
    simp_all

/-- Runs the machine for a number of steps and gives the result that it ends with, if it does and
if all states on the way pass a check. -/
def Machine.State.runChecking (check : State → Bool) : Nat → State → Option (Except Abort Float)
  | 0, _ => none
  | steps + 1, m =>
    if check m then
      match m.step, m.focus with
      | some next, _ => runChecking check steps next
      | none, .result r => some r
      | none, _ => none
    else none

theorem Machine.State.frames_of_step_none {m : State} (ended : m.step = none) : m.frames = [] := by
  unfold step at ended
  split at ended <;> first | rfl | cases ended

theorem Machine.State.of_runChecking {check : State → Bool} {steps : Nat} {m : State}
    {r : Except Abort Float} (ran : m.runChecking check steps = some r) :
    m.Reaches ⟨.result r, []⟩ ∧ ∀ n, m.Reaches n → check n = true := by
  induction steps generalizing m with
  | zero => cases ran
  | succ steps ih =>
    rw [runChecking] at ran
    split at ran
    · next passed =>
      split at ran
      · next next step =>
        obtain ⟨ended, all⟩ := ih ran
        refine ⟨.head step ended, fun n reached => ?_⟩
        obtain rfl | ⟨other, first, rest⟩ := reached.cases_head
        · exact passed
        · exact all n (step_unique first step ▸ rest)
      · next ended focus =>
        cases ran
        obtain ⟨_, _⟩ := m
        cases frames_of_step_none ended
        cases focus
        refine ⟨.refl, fun n reached => ?_⟩
        obtain rfl | ⟨other, first, _⟩ := reached.cases_head
        · exact passed
        · cases first.symm.trans ended
      · cases ran
    · cases ran

/-- The message of the fault that an evaluation ends in, if it ends in one. -/
def message? : Except Abort Float → Option String
  | .error (.fault f) => some f.message
  | _ => none

theorem exists_fault_of_message? {r : Except Abort Float} {text : String}
    (told : message? r = some text) : ∃ f, r = .error (.fault f) ∧ f.message = text := by
  unfold message? at told
  split at told
  · exact ⟨_, rfl, Option.some.inj told⟩
  · cases told

/-- A function that counts down in its argument, which has no value at zero. -/
def countdownScope : Scope := scopeOfFunction ⟨"k", by decide⟩ "k(y - y / y)"

/-- No more bodies are ever open than the limit allows, and without the limit it is the argument of
the last call that has no value.  With the limit the call is refused before its argument. -/
theorem depth_limit_before_arguments :
    (∀ m, (State.start countdownScope "k(31)").Reaches m →
      m.bodies ≤ Settings.maxFunctionDepth) ∧
    ∃ unlimited limited : Fault,
      (State.start countdownScope "k(31)").Reaches ⟨.result (.error (.fault unlimited)), []⟩ ∧
      evaluate countdownScope "k(31)" = .fault limited ∧
      unlimited.message = "Error evaluating function 'k': Division by zero in 'y / y'" ∧
      limited.message = "Error evaluating function 'k': Function 'k' is nested too deeply " ++
        "(recursive shared function?)" := by
  have run : ((State.start countdownScope "k(31)").runChecking
        (fun m => decide (m.bodies ≤ Settings.maxFunctionDepth)) 500).bind message? =
      some "Error evaluating function 'k': Division by zero in 'y / y'" := by decide +kernel
  have outcome : message? (evaluateText countdownScope.bodiesLeft countdownScope "k(31)"
        Settings.evaluationRoom) =
      some ("Error evaluating function 'k': Function 'k' is nested too deeply " ++
        "(recursive shared function?)") := by decide +kernel
  obtain ⟨_, ran, told⟩ := Option.bind_eq_some_iff.mp run
  obtain ⟨ended, all⟩ := State.of_runChecking ran
  obtain ⟨unlimited, rfl, ofArgument⟩ := exists_fault_of_message? told
  obtain ⟨limited, failed, ofDepth⟩ := exists_fault_of_message? outcome
  refine ⟨fun m reached => of_decide_eq_true (all m reached), unlimited, limited, ended, ?_,
    ofArgument, ofDepth⟩
  rw [evaluate_eq_ofResult, failed]
  rfl

end Costing.Formula

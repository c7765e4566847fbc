import Costing.Proofs.Formula.Evaluation
import Costing.Proofs.Formula.Tree
import Mathlib.Logic.Relation

/-! # Evaluation step by step

`Machine.State.step` evaluates a formula one step at a time: what is at work is in the focus of a
state, and what waits for its result are the frames under it.  The machine opens the bodies of
shared functions inside one another without any limit and has all the room that it needs, so a run
need not end.  The frames show at each moment how many bodies are open.

Its steps are those of `Tree.evaluate`: `ends_of_evaluate` runs the machine along the recursion of
the evaluation, up to the result or, where no further body may be opened, up to the call that is
refused.  The only other difference is that the evaluation may find its room exhausted. -/

namespace Costing.Formula

/-! ## The machine -/

namespace Machine

/-- What waits for a value. -/
inductive Frame where
  | sign
  | left (op : Operator) (source : String) (right : Tree) (s : Scope)
  | right (op : Operator) (x : Float) (source : String)
  /-- A call, with the values of the arguments before this one and with the arguments after it. -/
  | argument (callee : Callee) (values : List Float) (rest : List Tree) (s : Scope)
  | body (g : SharedFunction)

/-- What is at work. -/
inductive Focus where
  | tree (t : Tree) (s : Scope)
  | arguments (callee : Callee) (values : List Float) (rest : List Tree) (s : Scope)
  | result (r : Except Abort Float)

structure State where
  focus : Focus
  frames : List Frame

namespace Frame

/-- Marks an abort on its way through a frame. -/
def mark : Frame → Abort → Abort
  | .argument callee _ _ _, a => callee.mark a
  | .body g, a => a.within g.name.text
  | _, a => a

def isBody : Frame → Bool
  | .body _ => true
  | _ => false

/-- Goes on with the value that a frame has waited for. -/
def resume (x : Float) (under : List Frame) : Frame → State
  | .sign => ⟨.result (.ok (-x)), under⟩
  | .left op source operand s => ⟨.tree operand s, .right op x source :: under⟩
  | .right op y source => ⟨.result (op.apply y x source), under⟩
  | .argument callee values rest s => ⟨.arguments callee (values ++ [x]) rest s, under⟩
  | .body _ => ⟨.result (.ok x), under⟩

end Frame

/-- The number of bodies that are open. -/
def openBodies (frames : List Frame) : Nat := frames.countP Frame.isBody

/-- Begins with the text of a formula. -/
def Focus.ofFormula (s : Scope) (formula : String) : Focus :=
  match Tree.parse formula with
  | .error fault => .result (.error (.ofCause (.malformed fault)))
  | .ok t => .tree t s

namespace State

def start (s : Scope) (formula : String) : State := ⟨.ofFormula s formula, []⟩

def bodies (m : State) : Nat := openBodies m.frames

@[simp] theorem bodies_mk (focus : Focus) (frames : List Frame) :
    (State.mk focus frames).bodies = openBodies frames := rfl

/-- Begins with a tree. -/
def visit (s : Scope) (under : List Frame) : Tree → State
  | .number text => ⟨.result (.ok (Tree.numeral text)), under⟩
  | .name n => ⟨.result ((s.resolve n).mapError .ofCause), under⟩
  | .negate operand => ⟨.tree operand s, .sign :: under⟩
  | .binary op left right =>
    ⟨.tree left s, .left op (Tree.binary op left right).source right s :: under⟩
  | .call function args =>
    match callee s function args.length (Tree.call function args).source with
    | .error cause => ⟨.result (.error (.ofCause cause)), under⟩
    | .ok c => ⟨.arguments c [] args s, under⟩

/-- Calls with the values of all arguments. -/
def apply (values : List Float) (s : Scope) (under : List Frame) : Callee → State
  | .builtin f source => ⟨.result (callBuiltin f values source), under⟩
  | .shared g => ⟨.ofFormula (s.forBody (bindArguments g values)) g.formula, .body g :: under⟩

/-- The next state, if there is anything left to do. -/
def step : State → Option State
  | ⟨.tree t s, under⟩ => some (visit s under t)
  | ⟨.arguments c values (arg :: rest) s, under⟩ =>
    some ⟨.tree arg s, .argument c values rest s :: under⟩
  | ⟨.arguments c values [] s, under⟩ => some (apply values s under c)
  | ⟨.result (.ok x), frame :: under⟩ => some (frame.resume x under)
  | ⟨.result (.error a), frame :: under⟩ => some ⟨.result (.error (frame.mark a)), under⟩
  | ⟨.result _, []⟩ => none

/-- The shared function that is called next, before its arguments are evaluated. -/
def calls? : State → Option SharedFunction
  | ⟨.tree (.call function args) s, _⟩ =>
    match callee s function args.length (Tree.call function args).source with
    | .ok (.shared g) => some g
    | _ => none
  | _ => none

/-- One step without a limit. -/
def Step (m n : State) : Prop := m.step = some n

abbrev Reaches : State → State → Prop := Relation.ReflTransGen Step

/-- A shared function is called while a number of bodies are open. -/
def AtLimit (limit : Nat) (m : State) : Prop := m.calls?.isSome = true ∧ m.bodies = limit

/-- One step that opens no body beyond a limit. -/
def StepWithin (limit : Nat) (m n : State) : Prop := m.Step n ∧ ¬ m.AtLimit limit

abbrev ReachesWithin (limit : Nat) : State → State → Prop :=
  Relation.ReflTransGen (StepWithin limit)

/-! ## Runs -/

variable {limit : Nat} {m n o : State} {under : List Frame}

theorem step_unique (first : m.Step n) (second : m.Step o) : n = o :=
  Option.some.inj (first.symm.trans second)

theorem reaches_of_within (run : m.ReachesWithin limit n) : m.Reaches n :=
  Relation.ReflTransGen.mono (fun _ _ step => step.1) _ _ run

/-- A run that keeps to a limit and ends passes through every state that is reached at all. -/
theorem passes_of_reaches (run : m.ReachesWithin limit n) (ended : n.step = none)
    (reached : m.Reaches o) : o.ReachesWithin limit n := by
  induction reached with
  | refl => exact run
  | tail _ step ih =>
    obtain rfl | ⟨next, within, rest⟩ := ih.cases_head
    · rw [Step, ended] at step
      cases step
    · rwa [step_unique step within.1]

theorem not_atLimit_of_free (free : m.calls? = none) : ¬ m.AtLimit limit := by
  simp [AtLimit, free]

/-- What remains of an abort behind some frames. -/
def markAll (frames : List Frame) (a : Abort) : Abort := frames.foldl (fun b f => f.mark b) a

/-- The refusal of a call, from the state that comes to it. -/
def refusal (g : SharedFunction) : Abort := .ofCause (.evaluation (.tooManyBodies g.name.text))

/-- A run within a limit comes to a result for the frames under it, or to a call at the limit, for
whose refusal the result stands. -/
inductive Ends (limit : Nat) (m : State) (under : List Frame) (r : Except Abort Float) : Prop where
  | result (run : m.ReachesWithin limit ⟨.result r, under⟩)
  | refused {n : State} {g : SharedFunction} {inner : List Frame} (run : m.ReachesWithin limit n)
      (frames : n.frames = inner ++ under) (called : n.calls? = some g)
      (full : n.bodies = limit) (refused : r = .error (markAll inner (refusal g)))

namespace Ends

variable {frame : Frame} {r : Except Abort Float}

theorem of_reaches (run : m.ReachesWithin limit n) (ends : n.Ends limit under r) :
    m.Ends limit under r := by
  cases ends with
  | result rest => exact .result (run.trans rest)
  | refused rest frames called full refused =>
    exact .refused (run.trans rest) frames called full refused

theorem of_step (step : m.Step n) (free : ¬ m.AtLimit limit) (ends : n.Ends limit under r) :
    m.Ends limit under r :=
  of_reaches (.single ⟨step, free⟩) ends

/-- An abort goes on through the next frame. -/
theorem fail {a : Abort} (ends : m.Ends limit (frame :: under) (.error a)) :
    m.Ends limit under (.error (frame.mark a)) := by
  cases ends with
  | result run => exact .result (run.tail ⟨rfl, not_atLimit_of_free rfl⟩)
  | @refused n g inner run frames called full refused =>
    cases refused
    -- the call was refused further in, and this frame is the last that marks the refusal
    have split : n.frames = (inner ++ [frame]) ++ under := by simp [frames]
    exact .refused run split called full (by simp [markAll])

/-- A value is handed to the next frame. -/
theorem resume {x : Float} (ends : m.Ends limit (frame :: under) (.ok x))
    (next : (frame.resume x under).Ends limit under r) : m.Ends limit under r := by
  cases ends with
  | result run => exact of_reaches (run.tail ⟨rfl, not_atLimit_of_free rfl⟩) next
  | refused _ _ _ _ refused => cases refused

/-- A computation in two parts, the first of them under a frame that leaves aborts as they are. -/
theorem bind (frame : Frame) {x : Except Abort Float} {f : Float → Except Abort Float}
    (enough : (x >>= f) ≠ .error .exhausted) (unmarked : ∀ a, frame.mark a = a)
    (first : x ≠ .error .exhausted → m.Ends limit (frame :: under) x)
    (next : ∀ v, f v ≠ .error .exhausted → (frame.resume v under).Ends limit under (f v)) :
    m.Ends limit under (x >>= f) := by
  cases x with
  | error a =>
    have failed := (first enough).fail
    rwa [unmarked] at failed
  | ok v => exact (first nofun).resume (next v enough)

end Ends

end State

end Machine

/-! ## The evaluation -/

/-- Evaluates the text of a formula with some room, when a number of bodies may still be opened. -/
def evaluateText (bodies : Nat) (s : Scope) (formula : String) (room : Nat) :
    Except Abort Float :=
  match Tree.parse formula with
  | .error fault => .error (.ofCause (.malformed fault))
  | .ok t => t.evaluate (openBody bodies) s room

theorem openBody_succ (bodies : Nat) : openBody (bodies + 1) =
    some fun s g arguments => evaluateText bodies (s.forBody arguments) g.formula := rfl

theorem exists_rest {cost room : Nat} {f : Nat → Except Abort Float}
    (enough : (spend cost room >>= f) ≠ .error .exhausted) :
    ∃ rest, spend cost room = .ok rest := by
  cases spent : spend cost room with
  | ok rest => exact ⟨rest, rfl⟩
  | error a =>
    cases exhausted_of_spend spent
    exact absurd (by rw [spent]; rfl) enough

namespace Machine

/-- The machine does what the evaluation of a tree does, given enough room, in a place with as many
bodies to open as the limit leaves. -/
def Follows (limit bodies : Nat) (s : Scope) (t : Tree) : Prop :=
  ∀ room under, bodies + openBodies under = limit →
    t.evaluate (openBody bodies) s room ≠ .error .exhausted →
    (State.mk (.tree t s) under).Ends limit under (t.evaluate (openBody bodies) s room)

variable {limit bodies : Nat} {s : Scope}

open State (not_atLimit_of_free)

theorem follows_negate {operand : Tree} (ih : Follows limit bodies s operand) :
    Follows limit bodies s (.negate operand) := by
  intro room under count enough
  rw [Tree.evaluate] at enough ⊢
  obtain ⟨rest, spent⟩ := exists_rest enough
  rw [spent] at enough ⊢
  refine .of_step rfl (not_atLimit_of_free rfl) (.bind .sign enough (fun _ => rfl) ?_ ?_)
  · exact ih rest _ count
  · intro x _
    exact .result .refl

theorem follows_binary {op : Operator} {left right : Tree} (ihLeft : Follows limit bodies s left)
    (ihRight : Follows limit bodies s right) : Follows limit bodies s (.binary op left right) := by
  intro room under count enough
  rw [Tree.evaluate] at enough ⊢
  obtain ⟨rest, spent⟩ := exists_rest enough
  rw [spent] at enough ⊢
  let source := (Tree.binary op left right).source
  refine .of_step rfl (not_atLimit_of_free rfl)
    (.bind (.left op source right s) enough (fun _ => rfl) ?_ ?_)
  · exact ihLeft rest _ count
  · intro x enough
    refine .bind (.right op x source) enough (fun _ => rfl) ?_ ?_
    · exact ihRight rest _ count
    · intro y _
      exact .result .refl

/-- The machine evaluates arguments from left to right, up to the first that fails. -/
theorem ends_arguments {c : Callee} {rest : List Tree} {under : List Frame}
    {r : Except Abort Float} (room : Nat) (each : ∀ t ∈ rest, Follows limit bodies s t)
    (count : bodies + openBodies under = limit)
    (failed : ∀ a, Tree.evaluateAll (openBody bodies) s rest room = .error a →
      a ≠ .exhausted ∧ r = .error (c.mark a)) :
    ∀ values, (∀ xs, Tree.evaluateAll (openBody bodies) s rest room = .ok xs →
      (State.mk (.arguments c (values ++ xs) [] s) under).Ends limit under r) →
      (State.mk (.arguments c values rest s) under).Ends limit under r := by
  induction rest with
  | nil =>
    intro values after
    simpa using after [] rfl
  | cons arg rest ih =>
    intro values after
    obtain ⟨first, others⟩ := List.forall_mem_cons.mp each
    refine .of_step rfl (not_atLimit_of_free rfl) ?_
    have run := first room (.argument c values rest s :: under) count
    rw [Tree.evaluateAll] at failed after
    cases value : arg.evaluate (openBody bodies) s room with
    | error a =>
      rw [value] at run failed
      obtain ⟨enough, rfl⟩ := failed a rfl
      exact (run (by simpa using enough)).fail
    | ok x =>
      rw [value] at run failed after
      refine (run nofun).resume (ih others ?_ _ ?_)
      · intro a inside
        exact failed a (by rw [inside]; rfl)
      · intro xs inside
        rw [List.append_assoc]
        exact after (x :: xs) (by rw [inside]; rfl)

/-- A body is opened where the limit leaves one more. -/
theorem ends_ofFormula (each : ∀ t, Follows limit bodies s t) {formula : String} {room : Nat}
    {under : List Frame} (count : bodies + openBodies under = limit)
    (enough : evaluateText bodies s formula room ≠ .error .exhausted) :
    (State.mk (.ofFormula s formula) under).Ends limit under
      (evaluateText bodies s formula room) := by
  unfold evaluateText Focus.ofFormula at *
  cases parsed : Tree.parse formula with
  | error fault => exact .result .refl
  | ok t =>
    rw [parsed] at enough
    exact each t room under count enough

theorem ends_builtin {f : Builtin} {source : String} {args : List Tree} {room : Nat}
    {under : List Frame} (each : ∀ arg ∈ args, Follows limit bodies s arg)
    (count : bodies + openBodies under = limit)
    (enough : (Tree.evaluateAll (openBody bodies) s args room >>= fun xs =>
      callBuiltin f xs source) ≠ .error .exhausted) :
    (State.mk (.arguments (.builtin f source) [] args s) under).Ends limit under
      (Tree.evaluateAll (openBody bodies) s args room >>= fun xs => callBuiltin f xs source) := by
  refine ends_arguments room each count (fun a failed => ?_) [] fun xs values => ?_
  · rw [failed] at enough ⊢
    exact ⟨fun exhausted => enough (by rw [exhausted]; rfl), rfl⟩
  · rw [values]
    exact .of_step rfl (not_atLimit_of_free rfl) (.result .refl)

/-- A body is opened in the place of the arguments, with one body less to open. -/
theorem ends_shared {g : SharedFunction} {args : List Tree} {room : Nat} {under : List Frame}
    (each : ∀ arg ∈ args, Follows limit (bodies + 1) s arg)
    (inBody : ∀ s t, Follows limit bodies s t) (count : bodies + 1 + openBodies under = limit)
    (enough : (Tree.evaluateAll (openBody (bodies + 1)) s args room >>= fun xs =>
      evaluateText bodies (s.forBody (bindArguments g xs)) g.formula room).mapError
        (Abort.within g.name.text) ≠ .error .exhausted) :
    (State.mk (.arguments (.shared g) [] args s) under).Ends limit under
      ((Tree.evaluateAll (openBody (bodies + 1)) s args room >>= fun xs =>
        evaluateText bodies (s.forBody (bindArguments g xs)) g.formula room).mapError
          (Abort.within g.name.text)) := by
  refine ends_arguments room each count (fun a failed => ?_) [] fun xs values => ?_
  · rw [failed] at enough ⊢
    exact ⟨fun exhausted => enough (by rw [exhausted]; rfl), rfl⟩
  · rw [values] at enough ⊢
    refine .of_step rfl (not_atLimit_of_free rfl) ?_
    have deeper : bodies + openBodies (.body g :: under) = limit := by
      rw [← count, openBodies, List.countP_cons_of_pos rfl, ← openBodies]
      omega
    let inside := s.forBody (bindArguments g xs)
    have run : evaluateText bodies inside g.formula room ≠ .error .exhausted →
        (State.mk (.ofFormula inside g.formula) (.body g :: under)).Ends limit
          (.body g :: under) (evaluateText bodies inside g.formula room) :=
      ends_ofFormula (inBody _) deeper
    change (evaluateText bodies inside g.formula room).mapError _ ≠ _ at enough
    change State.Ends _ _ _ ((evaluateText bodies inside g.formula room).mapError _)
    cases value : evaluateText bodies inside g.formula room with
    | error a =>
      rw [value] at run enough
      exact (run fun exhausted => enough (by rw [exhausted]; rfl)).fail
    | ok x =>
      rw [value] at run
      exact (run nofun).resume (.result .refl)

theorem follows_call {function : String} {args : List Tree}
    (each : ∀ arg ∈ args, Follows limit bodies s arg)
    (inBodies : ∀ lower < bodies, ∀ s t, Follows limit lower s t) :
    Follows limit bodies s (.call function args) := by
  intro room under count enough
  rw [evaluate_call] at enough ⊢
  cases called : callee s function args.length (Tree.call function args).source with
  | error cause =>
    refine .of_step rfl (not_atLimit_of_free (by simp [State.calls?, called])) ?_
    rw [State.visit, called]
    exact .result .refl
  | ok c =>
    rw [called] at enough
    have step : (State.mk (.tree (.call function args) s) under).Step
        ⟨.arguments c [] args s, under⟩ := by
      simp [State.Step, State.step, State.visit, called]
    cases c with
    | builtin f source =>
      obtain ⟨rest, spent⟩ := exists_rest enough
      simp only [spent] at enough ⊢
      exact .of_step step (not_atLimit_of_free (by simp [State.calls?, called]))
        (ends_builtin each count enough)
    | shared g =>
      have calls : (State.mk (.tree (.call function args) s) under).calls? = some g := by
        simp [State.calls?, called]
      cases bodies with
      -- all bodies that the limit allows are open: this call is the one that is refused
      | zero => exact .refused .refl (List.nil_append _).symm calls (by simpa using count) rfl
      | succ lower =>
        rw [openBody_succ] at enough ⊢
        obtain ⟨rest, spent⟩ := exists_rest enough
        simp only [spent] at enough ⊢
        rw [← openBody_succ] at enough ⊢
        have free : ¬ State.AtLimit limit ⟨.tree (.call function args) s, under⟩ := by
          rintro ⟨-, full⟩
          rw [State.bodies_mk] at full
          omega
        exact .of_step step free
          (ends_shared each (inBodies lower (Nat.lt_succ_self _)) count enough)

/-- The machine does what the evaluation does. -/
theorem follows (bodies : Nat) (s : Scope) (t : Tree) : Follows limit bodies s t := by
  -- arguments are parts of the tree; a body may be any tree, but has fewer bodies to open
  induction bodies using Nat.strongRecOn generalizing s t with
  | ind bodies inBodies =>
    induction t using Tree.induct with
    | number text | name n =>
      exact fun _ _ _ _ => .of_step rfl (not_atLimit_of_free rfl) (.result .refl)
    | negate operand ih => exact follows_negate ih
    | binary op left right ihLeft ihRight => exact follows_binary ihLeft ihRight
    | call function args ih => exact follows_call ih inBodies

end Machine

/-! ## Room -/

/-- A computation comes to the same result in every room that is large enough.  A smaller room may
be exhausted, but makes no other difference. -/
structure Settles {α : Type} (x : Nat → Except Abort α) (r : Except Abort α) : Prop where
  genuine : r ≠ .error .exhausted
  only : ∀ room, x room = .error .exhausted ∨ x room = r
  enough : ∃ least, ∀ room, least ≤ room → x room = r

namespace Settles

variable {α β : Type} {x : Nat → Except Abort α} {r : Except Abort α}

theorem const (genuine : r ≠ .error .exhausted) : Settles (fun _ => r) r :=
  ⟨genuine, fun _ => .inr rfl, 0, fun _ _ => rfl⟩

theorem spend {cost : Nat} (settles : Settles x r) :
    Settles (fun room => Formula.spend cost room >>= x) r := by
  obtain ⟨genuine, only, least, enough⟩ := settles
  refine ⟨genuine, fun room => ?_, least + cost, fun room large => ?_⟩
  · by_cases fits : cost ≤ room
    · simp only [Formula.spend, fits, if_true]
      exact only (room - cost)
    · simp only [Formula.spend, fits, if_false]
      exact .inl rfl
  · have fits : cost ≤ room := by omega
    simp only [Formula.spend, fits, if_true]
    exact enough (room - cost) (by omega)

theorem bind {f : α → Nat → Except Abort β} (settles : Settles x r)
    (next : ∀ a, ∃ r', Settles (f a) r') :
    ∃ r', Settles (fun room => x room >>= fun a => f a room) r' := by
  obtain ⟨genuine, only, least, enough⟩ := settles
  cases r with
  | error a =>
    refine ⟨.error a, fun same => genuine (by cases same; rfl), fun room => ?_, least,
      fun room large => by rw [enough room large]; rfl⟩
    obtain exhausted | same := only room
    · exact .inl (by rw [exhausted]; rfl)
    · exact .inr (by rw [same]; rfl)
  | ok a =>
    obtain ⟨r', genuine', only', least', enough'⟩ := next a
    refine ⟨r', genuine', fun room => ?_, max least least', fun room large => ?_⟩
    · obtain exhausted | same := only room
      · exact .inl (by rw [exhausted]; rfl)
      · rw [same]
        exact only' room
    · rw [enough room (by omega)]
      exact enough' room (by omega)

theorem within (name : String) (settles : Settles x r) :
    Settles (fun room => (x room).mapError (Abort.within name))
      (r.mapError (Abort.within name)) := by
  obtain ⟨genuine, only, least, enough⟩ := settles
  refine ⟨fun same => ?_, fun room => ?_, least, fun room large => by rw [enough room large]⟩
  · obtain ⟨a, rfl, marked⟩ := mapError_eq_error_iff.mp same
    cases a with
    | exhausted => exact genuine rfl
    | fault f => cases marked
    | loneExtremum => cases marked
  · obtain exhausted | same := only room
    · exact .inl (by rw [exhausted]; rfl)
    · exact .inr (by rw [same])

theorem exists_congr {y : Nat → Except Abort α} (same : ∀ room, x room = y room)
    (settles : ∃ r, Settles y r) : ∃ r, Settles x r :=
  funext same ▸ settles

end Settles

theorem apply_ne_exhausted (op : Operator) (x y : Float) (source : String) :
    op.apply x y source ≠ .error .exhausted := by
  cases op <;> simp only [Operator.apply] <;> (try split) <;> nofun

theorem callBuiltin_ne_exhausted (f : Builtin) (xs : List Float) (source : String) :
    callBuiltin f xs source ≠ .error .exhausted := by
  unfold callBuiltin
  split <;> nofun

theorem exists_settles_evaluateAll {body : Option BodyEvaluator} {s : Scope} {args : List Tree}
    (each : ∀ arg ∈ args, ∃ r, Settles (arg.evaluate body s) r) :
    ∃ r, Settles (Tree.evaluateAll body s args) r := by
  induction args with
  | nil => exact ⟨_, .const nofun⟩
  | cons arg rest ih =>
    obtain ⟨⟨r, first⟩, others⟩ := List.forall_mem_cons.mp each
    obtain ⟨r', further⟩ := ih others
    exact first.bind fun x => further.bind fun xs => ⟨_, .const nofun⟩

theorem exists_settles_text {bodies : Nat}
    (each : ∀ s (t : Tree), ∃ r, Settles (t.evaluate (openBody bodies) s) r) (s : Scope)
    (formula : String) : ∃ r, Settles (evaluateText bodies s formula) r := by
  cases parsed : Tree.parse formula with
  | error fault =>
    refine Settles.exists_congr (y := fun _ => .error (.ofCause (.malformed fault))) ?_
      ⟨_, .const nofun⟩
    intro room
    rw [evaluateText, parsed]
  | ok t => exact Settles.exists_congr (fun room => by rw [evaluateText, parsed]) (each s t)

/-- Whatever an evaluation comes to, it comes to it in some room. -/
theorem exists_settles (bodies : Nat) (s : Scope) (t : Tree) :
    ∃ r, Settles (t.evaluate (openBody bodies) s) r := by
  induction bodies using Nat.strongRecOn generalizing s t with
  | ind bodies inBodies =>
    induction t using Tree.induct with
    | number text => exact ⟨_, .const nofun⟩
    | name n =>
      refine ⟨_, .const fun same => ?_⟩
      obtain ⟨cause, -, made⟩ := mapError_eq_error_iff.mp same
      cases made
    | negate operand ih =>
      obtain ⟨r, settles⟩ := ih
      obtain ⟨r', whole⟩ := settles.bind fun x => ⟨.ok (-x), .const nofun⟩
      exact ⟨r', whole.spend⟩
    | binary op left right ihLeft ihRight =>
      obtain ⟨r, first⟩ := ihLeft
      obtain ⟨r', second⟩ := ihRight
      obtain ⟨r'', whole⟩ := first.bind fun x => second.bind fun y =>
        ⟨_, .const (apply_ne_exhausted op x y (Tree.binary op left right).source)⟩
      exact ⟨r'', whole.spend⟩
    | call function args ih =>
      obtain ⟨r, values⟩ := exists_settles_evaluateAll ih
      refine Settles.exists_congr (fun room => evaluate_call) ?_
      cases Machine.callee s function args.length (Tree.call function args).source with
      | error cause => exact ⟨_, .const nofun⟩
      | ok c =>
        cases c with
        | builtin f source =>
          obtain ⟨r', whole⟩ := values.bind fun xs =>
            ⟨_, .const (callBuiltin_ne_exhausted f xs source)⟩
          exact ⟨r', whole.spend⟩
        | shared g =>
          cases bodies with
          | zero => exact ⟨_, .const nofun⟩
          | succ lower =>
            have inBody := exists_settles_text (inBodies lower (Nat.lt_succ_self _))
            obtain ⟨r', whole⟩ := values.bind fun xs =>
              inBody (s.forBody (bindArguments g xs)) g.formula
            exact ⟨_, (whole.within g.name.text).spend⟩

end Costing.Formula

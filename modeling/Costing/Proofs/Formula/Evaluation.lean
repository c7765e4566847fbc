import Costing.Formula.Evaluation
import Costing.Proofs.Except

/-! # Steps of an evaluation

What the parts of an evaluation come to: the arguments of a call, which are evaluated from left to
right up to the first that fails, the call itself, and the body of a shared function.

A call fails in one of the ways that `CallFails` lists (`evaluate_call_eq_error_iff`), so whatever
is said of failures takes a call apart by these cases. -/

namespace Costing.Formula

variable {body : Option BodyEvaluator} {s : Scope} {args : List Tree} {room : Nat}

/-- Where no room is left, nothing but that is reported. -/
theorem exhausted_of_spend {cost : Nat} {a : Abort} (failed : spend cost room = .error a) :
    a = .exhausted := by
  unfold spend at failed
  split at failed <;> cases failed
  rfl

theorem length_of_evaluateAll {values : List Float}
    (evaluated : Tree.evaluateAll body s args room = .ok values) :
    values.length = args.length := by
  induction args generalizing values with
  | nil => cases evaluated; rfl
  | cons arg rest ih =>
    simp only [Tree.evaluateAll, bind_eq_ok_iff] at evaluated
    obtain ⟨x, _, xs, others, result⟩ := evaluated
    cases result
    simp [ih others]

theorem evaluateAll_eq_ok_iff : (∃ xs, Tree.evaluateAll body s args room = .ok xs) ↔
    ∀ a ∈ args, ∃ x, a.evaluate body s room = .ok x := by
  induction args with
  | nil => simp [Tree.evaluateAll]
  | cons arg rest ih =>
    simp only [Tree.evaluateAll, bind_eq_ok_iff, List.forall_mem_cons, ← ih]
    constructor
    · rintro ⟨_, x, first, xs, others, _⟩
      exact ⟨⟨x, first⟩, xs, others⟩
    · rintro ⟨⟨x, first⟩, xs, others⟩
      exact ⟨_, x, first, xs, others, rfl⟩

/-- Arguments fail as the first of them does that fails. -/
theorem evaluateAll_eq_error_iff {a : Abort} :
    Tree.evaluateAll body s args room = .error a ↔
      ∃ before arg after, args = before ++ arg :: after ∧
        (∀ b ∈ before, ∃ x, b.evaluate body s room = .ok x) ∧
        arg.evaluate body s room = .error a := by
  induction args with
  | nil => simp [Tree.evaluateAll]
  | cons first rest ih =>
    simp only [Tree.evaluateAll, bind_eq_error_iff, ih]
    constructor
    · rintro (failed | ⟨x, value, ⟨before, arg, after, rfl, values, failed⟩ | ⟨_, _, made⟩⟩)
      · exact ⟨[], first, rest, rfl, List.forall_mem_nil _, failed⟩
      · exact ⟨first :: before, arg, after, rfl,
          List.forall_mem_cons.mpr ⟨⟨x, value⟩, values⟩, failed⟩
      · cases made
    · rintro ⟨before, arg, after, split, values, failed⟩
      cases before with
      | nil =>
        obtain ⟨rfl, rfl⟩ := List.cons.inj split
        exact .inl failed
      | cons b before =>
        obtain ⟨rfl, rfl⟩ := List.cons.inj split
        obtain ⟨⟨x, value⟩, values⟩ := List.forall_mem_cons.mp values
        exact .inr ⟨x, value, .inl ⟨before, arg, after, rfl, values, failed⟩⟩

/-! ## Calls -/

namespace Machine

/-- What the values of the arguments of a call are for. -/
inductive Callee where
  | builtin (f : Builtin) (source : String)
  | shared (g : SharedFunction)

/-- What a call calls, if it exists and takes the number of arguments. -/
def callee (s : Scope) (function : String) (count : Nat) (source : String) :
    Except Cause Callee :=
  match Builtin.ofName? function with
  | some f =>
    if f.arity.accepts count then .ok (.builtin f source)
    else .error (.arity (.builtin f.name f.arity count source))
  | none =>
    match s.book.functions.get? function with
    | some g =>
      if g.arity.accepts count then .ok (.shared g)
      else .error (.arity (.shared g.name.text g.arity count source))
    | none => .error (.unknownName (.unknownFunction function))

/-- Marks an abort during a call. -/
def Callee.mark : Callee → Abort → Abort
  | .builtin _ _, a => a
  | .shared g, a => a.within g.name.text

/-- What is called gets as far as its arguments: a shared function only if its body may be
opened. -/
def Callee.Opens (body : Option BodyEvaluator) : Callee → Prop
  | .builtin _ _ => True
  | .shared _ => body.isSome = true

variable {function source : String} {count : Nat}

theorem callee_eq_builtin_iff {f : Builtin} {text : String} :
    callee s function count source = .ok (.builtin f text) ↔
      Builtin.ofName? function = some f ∧ f.arity.accepts count = true ∧ source = text := by
  unfold callee
  cases Builtin.ofName? function with
  | some b => by_cases accepted : b.arity.accepts count = true <;> grind
  | none =>
    cases s.book.functions.get? function with
    | none => simp
    | some g => by_cases accepted : g.arity.accepts count = true <;> simp [accepted]

theorem callee_eq_shared_iff {g : SharedFunction} :
    callee s function count source = .ok (.shared g) ↔
      Builtin.ofName? function = none ∧ s.book.functions.get? function = some g ∧
        g.arity.accepts count = true := by
  unfold callee
  cases Builtin.ofName? function with
  | some b => by_cases accepted : b.arity.accepts count = true <;> simp [accepted]
  | none =>
    cases s.book.functions.get? function with
    | none => simp
    | some h => by_cases accepted : h.arity.accepts count = true <;> grind

end Machine

open Machine (Callee callee callee_eq_builtin_iff callee_eq_shared_iff)

section
variable {function : String}

theorem evaluate_call :
    (Tree.call function args).evaluate body s room =
      match callee s function args.length (Tree.call function args).source, body with
      | .error cause, _ => .error (.ofCause cause)
      | .ok (.builtin f source), body =>
        spend callRoom room >>= fun room =>
          Tree.evaluateAll body s args room >>= fun xs => callBuiltin f xs source
      | .ok (.shared g), none => .error (.ofCause (.evaluation (.tooManyBodies g.name.text)))
      | .ok (.shared g), some evaluateBody =>
        spend callRoom room >>= fun room =>
          (Tree.evaluateAll (some evaluateBody) s args room >>= fun xs =>
            evaluateBody s g (bindArguments g xs) room).mapError (Abort.within g.name.text) := by
  rw [Tree.evaluate, callee]
  cases Builtin.ofName? function with
  | some f => by_cases accepted : f.arity.accepts args.length = true <;> simp [accepted]
  | none =>
    cases s.book.functions.get? function with
    | none => rfl
    | some g =>
      by_cases accepted : g.arity.accepts args.length = true <;> simp [accepted]
      cases body <;> rfl

/-- The arguments of a call with a value have values. -/
theorem exists_evaluateAll_of_call {x : Float}
    (run : (Tree.call function args).evaluate body s room = .ok x) :
    ∃ rest xs, Tree.evaluateAll body s args rest = .ok xs := by
  rw [evaluate_call] at run
  split at run
  · cases run
  · simp only [bind_eq_ok_iff] at run
    obtain ⟨rest, _, xs, values, _⟩ := run
    exact ⟨rest, xs, values⟩
  · cases run
  · simp only [bind_eq_ok_iff, mapError_eq_ok_iff] at run
    obtain ⟨rest, _, xs, values, _⟩ := run
    exact ⟨rest, xs, values⟩

/-- How a call fails. -/
inductive CallFails (body : Option BodyEvaluator) (s : Scope) (function : String)
    (args : List Tree) (room : Nat) : Abort → Prop where
  /-- There is nothing to call by the name, or it takes another number of arguments. -/
  | uncalled {cause : Cause}
      (called : callee s function args.length (Tree.call function args).source = .error cause) :
      CallFails body s function args room (.ofCause cause)
  /-- No further body may be opened. -/
  | closed {g : SharedFunction}
      (called : callee s function args.length (Tree.call function args).source = .ok (.shared g))
      (closed : body = none) :
      CallFails body s function args room (.ofCause (.evaluation (.tooManyBodies g.name.text)))
  | exhausted {c : Callee}
      (called : callee s function args.length (Tree.call function args).source = .ok c)
      (opens : c.Opens body) (spent : spend callRoom room = .error .exhausted) :
      CallFails body s function args room .exhausted
  | argument {c : Callee} {rest : Nat} {a marked : Abort}
      (called : callee s function args.length (Tree.call function args).source = .ok c)
      (opens : c.Opens body) (spent : spend callRoom room = .ok rest)
      (inside : Tree.evaluateAll body s args rest = .error a) (mark : c.mark a = marked) :
      CallFails body s function args room marked
  | builtin {f : Builtin} {source : String} {rest : Nat} {xs : List Float} {a : Abort}
      (called : callee s function args.length (Tree.call function args).source =
        .ok (.builtin f source))
      (spent : spend callRoom room = .ok rest)
      (values : Tree.evaluateAll body s args rest = .ok xs)
      (refused : callBuiltin f xs source = .error a) : CallFails body s function args room a
  | body {g : SharedFunction} {evaluateBody : BodyEvaluator} {rest : Nat} {xs : List Float}
      {a marked : Abort}
      (called : callee s function args.length (Tree.call function args).source = .ok (.shared g))
      (opened : body = some evaluateBody) (spent : spend callRoom room = .ok rest)
      (values : Tree.evaluateAll body s args rest = .ok xs)
      (inside : evaluateBody s g (bindArguments g xs) rest = .error a)
      (mark : a.within g.name.text = marked) : CallFails body s function args room marked

variable {a : Abort}

theorem callFails_of_evaluate (failed : (Tree.call function args).evaluate body s room = .error a) :
    CallFails body s function args room a := by
  rw [evaluate_call] at failed
  split at failed
  · next called =>
    cases failed
    exact .uncalled called
  · next called =>
    simp only [bind_eq_error_iff] at failed
    obtain spent | ⟨rest, spent, inside | ⟨xs, values, refused⟩⟩ := failed
    · cases exhausted_of_spend spent
      exact .exhausted called trivial spent
    · exact .argument called trivial spent inside rfl
    · exact .builtin called spent values refused
  · next called =>
    cases failed
    exact .closed called rfl
  · next called =>
    simp only [bind_eq_error_iff, mapError_eq_error_iff] at failed
    obtain spent | ⟨rest, spent, a, inside | ⟨xs, values, inside⟩, mark⟩ := failed
    · cases exhausted_of_spend spent
      exact .exhausted called rfl spent
    · exact .argument called rfl spent inside mark
    · exact .body called rfl spent values inside mark

theorem CallFails.evaluate (fails : CallFails body s function args room a) :
    (Tree.call function args).evaluate body s room = .error a := by
  rw [evaluate_call]
  cases fails with
  | uncalled called => rw [called]
  | closed called closed => rw [called, closed]
  | @exhausted c called opens spent =>
    rw [called]
    cases c with
    | builtin f source => exact bind_eq_error_iff.mpr (.inl spent)
    | shared g =>
      obtain ⟨evaluateBody, rfl⟩ := Option.isSome_iff_exists.mp opens
      exact bind_eq_error_iff.mpr (.inl spent)
  | @argument c _ _ _ called opens spent inside mark =>
    rw [called]
    cases c with
    | builtin f source =>
      subst mark
      exact bind_eq_error_iff.mpr (.inr ⟨_, spent, bind_eq_error_iff.mpr (.inl inside)⟩)
    | shared g =>
      obtain ⟨evaluateBody, rfl⟩ := Option.isSome_iff_exists.mp opens
      exact bind_eq_error_iff.mpr (.inr ⟨_, spent, mapError_eq_error_iff.mpr
        ⟨_, bind_eq_error_iff.mpr (.inl inside), mark⟩⟩)
  | builtin called spent values refused =>
    rw [called]
    exact bind_eq_error_iff.mpr (.inr ⟨_, spent, bind_eq_error_iff.mpr (.inr ⟨_, values, refused⟩)⟩)
  | body called opened spent values inside mark =>
    subst opened
    rw [called]
    exact bind_eq_error_iff.mpr (.inr ⟨_, spent, mapError_eq_error_iff.mpr
      ⟨_, bind_eq_error_iff.mpr (.inr ⟨_, values, inside⟩), mark⟩⟩)

theorem evaluate_call_eq_error_iff : (Tree.call function args).evaluate body s room = .error a ↔
    CallFails body s function args room a :=
  ⟨callFails_of_evaluate, CallFails.evaluate⟩

end

/-! ## Bodies -/

/-- A body fails as its tree does in the scope of the arguments, or because it is malformed. -/
theorem evaluateBody_eq_error_iff {bodies : Nat} {g : SharedFunction}
    {arguments : Table String Tagged} {evaluateBody : BodyEvaluator} {a : Abort}
    (opened : openBody (bodies + 1) = some evaluateBody) :
    evaluateBody s g arguments room = .error a ↔
      (∃ fault, Tree.parse g.formula = .error fault ∧ .ofCause (.malformed fault) = a) ∨
        ∃ t, Tree.parse g.formula = .ok t ∧
          t.evaluate (openBody bodies) (s.forBody arguments) room = .error a := by
  cases opened
  cases parsed : Tree.parse g.formula <;> simp [parsed]

end Costing.Formula

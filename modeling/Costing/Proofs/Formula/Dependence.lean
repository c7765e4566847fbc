import Costing.Proofs.Formula.Evaluation

/-! # What an evaluation depends on

The value of a tree depends on the values of the names in it and on the price book.  In two
scopes with the same book that give each name in a tree the same number, or none, the tree has
the same number or none (`toOption_evaluate_congr`), and where the faults of the names are the same
as well, it comes to the same end (`evaluate_congr`).  Evaluation leaves no name out: a
tree with a value resolves every name in it (`resolve_of_evaluate`). -/

namespace Costing

namespace Formula

open Machine (callee)

/-- Two scopes of one price book in which as many bodies are open. -/
structure Scope.SameBook (s s' : Scope) : Prop where
  book : s.book = s'.book
  depth : s.depth = s'.depth

/-- A name stands for the same number in both scopes, or for none. -/
def Scope.SameNumber (s s' : Scope) (name : String) : Prop :=
  (s.resolve name).toOption = (s'.resolve name).toOption

/-- The body of a shared function sees nothing of the scope it is called from. -/
theorem openBody_congr {s s' : Scope} (same : s.SameBook s') {bodies : Nat}
    {evaluateBody : BodyEvaluator} (opened : openBody bodies = some evaluateBody) :
    evaluateBody s = evaluateBody s' := by
  have inside : s.forBody = s'.forBody := by
    funext arguments
    rw [Scope.forBody, Scope.forBody, same.book, same.depth]
  cases bodies with
  | zero => cases opened
  | succ bodies =>
    cases opened
    -- only `forBody` looks at the scope of the call
    funext f arguments room
    dsimp only
    rw [inside]

theorem callee_congr {s s' : Scope} (same : s.SameBook s') {function source : String}
    {count : Nat} : callee s function count source = callee s' function count source := by
  rw [callee, callee, same.book]

/-- The number of a name comes from the price book and from the values of the name and of its
base. -/
theorem Scope.resolve_congr {s s' : Scope} (same : s.SameBook s') {name : String}
    (whole : s.values.get? name = s'.values.get? name)
    (base : s.values.get? (splitName name).1 = s'.values.get? (splitName name).1) :
    s.resolve name = s'.resolve name := by
  have numeric : s.numeric name = s'.numeric name := by
    funext value
    cases value <;> simp only [Scope.numeric, Scope.selected, same.book]
  rw [Scope.resolve, Scope.resolve, whole, numeric]
  cases split : splitName name with
  | mk base' property =>
    rw [split] at base
    cases property with
    | none => simp only [Scope.resolvePlain, same.book]
    | some property =>
      dsimp only at base
      simp only [Scope.resolveProperty, Scope.selected, Scope.propertyOf, base, same.book]

section
variable {s s' : Scope}

mutual

theorem toOption_evaluate_congr (same : s.SameBook s') (bodies : Nat) : ∀ (t : Tree) (room : Nat),
    (∀ n, .name n ∈ t.nodes → s.SameNumber s' n) →
    (t.evaluate (openBody bodies) s room).toOption =
      (t.evaluate (openBody bodies) s' room).toOption
  | .number text, room, agree => by rw [Tree.evaluate, Tree.evaluate]
  | .name n, room, agree => by
    rw [Tree.evaluate, Tree.evaluate, toOption_mapError, toOption_mapError]
    exact agree n (by simp [Tree.nodes])
  | .negate operand, room, agree => by
    have inner := fun room => toOption_evaluate_congr same bodies operand room
      fun n member => agree n (by simp [Tree.nodes, member])
    simp only [Tree.evaluate, toOption_bind, inner]
  | .binary op left right, room, agree => by
    have first := fun room => toOption_evaluate_congr same bodies left room
      fun n member => agree n (by simp [Tree.nodes, member])
    have second := fun room => toOption_evaluate_congr same bodies right room
      fun n member => agree n (by simp [Tree.nodes, member])
    simp only [Tree.evaluate, toOption_bind, first, second]
  | .call function args, room, agree => by
    have arguments := fun room => toOption_evaluateAll_congr same bodies args room
      fun n member => agree n (by simp [Tree.nodes, member])
    rw [evaluate_call, evaluate_call, callee_congr same]
    cases callee s' function args.length (Tree.call function args).source with
    | error cause => rfl
    | ok c =>
      cases c with
      | builtin f source => simp only [toOption_bind, arguments]
      | shared g =>
        cases opened : openBody bodies with
        | none => rfl
        | some evaluateBody =>
          rw [opened] at arguments
          simp only [toOption_bind, toOption_mapError, arguments, openBody_congr same opened]

theorem toOption_evaluateAll_congr (same : s.SameBook s') (bodies : Nat) :
    ∀ (args : List Tree) (room : Nat),
    (∀ n, .name n ∈ Tree.nodesOf args → s.SameNumber s' n) →
    (Tree.evaluateAll (openBody bodies) s args room).toOption =
      (Tree.evaluateAll (openBody bodies) s' args room).toOption
  | [], room, agree => by rw [Tree.evaluateAll, Tree.evaluateAll]
  | arg :: rest, room, agree => by
    have first := fun room => toOption_evaluate_congr same bodies arg room
      fun n member => agree n (by simp [Tree.nodesOf, member])
    have others := fun room => toOption_evaluateAll_congr same bodies rest room
      fun n member => agree n (by simp [Tree.nodesOf, member])
    simp only [Tree.evaluateAll, toOption_bind, first, others]

end

end

/-! ## No name is left out -/

section
variable {s : Scope}

mutual

theorem resolve_of_evaluate {body : Option BodyEvaluator} : ∀ {t : Tree} {room : Nat} {x : Float},
    t.evaluate body s room = .ok x → ∀ n, .name n ∈ t.nodes → ∃ y, s.resolve n = .ok y
  | .number text, room, x, run, n, member => by simp [Tree.nodes] at member
  | .name m, room, x, run, n, member => by
    obtain rfl : n = m := by simpa [Tree.nodes] using member
    rw [Tree.evaluate, mapError_eq_ok_iff] at run
    exact ⟨x, run⟩
  | .negate operand, room, x, run, n, member => by
    simp only [Tree.evaluate, bind_eq_ok_iff] at run
    obtain ⟨left, _, y, inner, _⟩ := run
    exact resolve_of_evaluate inner n (by simpa [Tree.nodes] using member)
  | .binary op left right, room, x, run, n, member => by
    simp only [Tree.evaluate, bind_eq_ok_iff] at run
    obtain ⟨rest, _, y, first, z, second, _⟩ := run
    have among : .name n ∈ left.nodes ∨ .name n ∈ right.nodes := by simpa [Tree.nodes] using member
    obtain inLeft | inRight := among
    · exact resolve_of_evaluate first n inLeft
    · exact resolve_of_evaluate second n inRight
  | .call function args, room, x, run, n, member => by
    have among : .name n ∈ Tree.nodesOf args := by simpa [Tree.nodes] using member
    obtain ⟨rest, xs, arguments⟩ := exists_evaluateAll_of_call run
    exact resolve_of_evaluateAll arguments n among

theorem resolve_of_evaluateAll {body : Option BodyEvaluator} :
    ∀ {args : List Tree} {room : Nat} {xs : List Float},
    Tree.evaluateAll body s args room = .ok xs →
    ∀ n, .name n ∈ Tree.nodesOf args → ∃ y, s.resolve n = .ok y
  | [], room, xs, run, n, member => by simp [Tree.nodesOf] at member
  | arg :: rest, room, xs, run, n, member => by
    simp only [Tree.evaluateAll, bind_eq_ok_iff] at run
    obtain ⟨x, first, others, tail, _⟩ := run
    have among : .name n ∈ arg.nodes ∨ .name n ∈ Tree.nodesOf rest := by
      simpa [Tree.nodesOf] using member
    obtain here | later := among
    · exact resolve_of_evaluate first n here
    · exact resolve_of_evaluateAll tail n later

end

end

theorem Tree.mem_names {t : Tree} {n : String} : n ∈ t.names ↔ .name n ∈ t.nodes := by
  rw [Tree.names, List.mem_eraseDups, List.mem_filterMap]
  constructor
  · rintro ⟨node, member, named⟩
    cases node <;> simp only [Tree.name?, Option.some.injEq, reduceCtorEq] at named
    exact named ▸ member
  · exact fun member => ⟨.name n, member, rfl⟩

/-! ## Whole formulas -/

/-- The number that comes of a formula, if one does. -/
def Outcome.number? : Outcome → Option Float
  | .value x => some x
  | _ => none

theorem number?_evaluate {s : Scope} {formula : String} {t : Tree}
    (parsed : Tree.parse formula = .ok t) :
    (evaluate s formula).number? =
      (t.evaluate (openBody s.bodiesLeft) s Settings.evaluationRoom).toOption.filter
        (·.isFinite) := by
  unfold evaluate
  rw [parsed]
  cases result : t.evaluate (openBody s.bodiesLeft) s Settings.evaluationRoom with
  | ok x =>
    by_cases finite : x.isFinite = true
    · simp [result, finite, Outcome.number?, Except.toOption, Option.filter]
    · simp [result, finite, Outcome.number?, Except.toOption, Option.filter]
  | error abort => cases abort <;> simp [result, Outcome.number?, Except.toOption]

theorem number?_evaluate_congr {s s' : Scope} (same : s.SameBook s') {formula : String}
    (agree : ∀ t, Tree.parse formula = .ok t → ∀ n, .name n ∈ t.nodes → s.SameNumber s' n) :
    (evaluate s formula).number? = (evaluate s' formula).number? := by
  cases parsed : Tree.parse formula with
  | error fault => rw [evaluate, evaluate, parsed]
  | ok t =>
    have bodies : s.bodiesLeft = s'.bodiesLeft := by
      rw [Scope.bodiesLeft, Scope.bodiesLeft, same.depth]
    rw [number?_evaluate parsed, number?_evaluate parsed, bodies,
      toOption_evaluate_congr same _ t _ (agree t parsed)]

theorem resolve_of_number? {s : Scope} {formula : String} {x : Float}
    (value : (evaluate s formula).number? = some x) :
    ∃ t, Tree.parse formula = .ok t ∧ ∀ n, .name n ∈ t.nodes → ∃ y, s.resolve n = .ok y := by
  cases parsed : Tree.parse formula with
  | error fault => rw [evaluate, parsed] at value; cases value
  | ok t =>
    rw [number?_evaluate parsed, Option.filter_eq_some_iff, toOption_eq_some_iff] at value
    exact ⟨t, rfl, resolve_of_evaluate value.1⟩

/-! ## Scopes that show the same

Where the names in a formula come to the same end, faults included, so does the formula. -/

section
variable {s s' : Scope}

mutual

theorem Tree.evaluate_congr (same : s.SameBook s') (bodies : Nat) : ∀ (t : Tree) (room : Nat),
    (∀ n, .name n ∈ t.nodes → s.resolve n = s'.resolve n) →
    t.evaluate (openBody bodies) s room = t.evaluate (openBody bodies) s' room
  | .number text, room, agree => by rw [Tree.evaluate, Tree.evaluate]
  | .name n, room, agree => by
    rw [Tree.evaluate, Tree.evaluate, agree n (by simp [Tree.nodes])]
  | .negate operand, room, agree => by
    have inner := fun room => Tree.evaluate_congr same bodies operand room
      fun n member => agree n (by simp [Tree.nodes, member])
    simp only [Tree.evaluate, inner]
  | .binary op left right, room, agree => by
    have first := fun room => Tree.evaluate_congr same bodies left room
      fun n member => agree n (by simp [Tree.nodes, member])
    have second := fun room => Tree.evaluate_congr same bodies right room
      fun n member => agree n (by simp [Tree.nodes, member])
    simp only [Tree.evaluate, first, second]
  | .call function args, room, agree => by
    have arguments := fun room => Tree.evaluateAll_congr same bodies args room
      fun n member => agree n (by simp [Tree.nodes, member])
    -- a body is opened in a scope of its own
    cases opened : openBody bodies with
    | none =>
      rw [opened] at arguments
      simp only [Tree.evaluate, same.book, arguments]
    | some evaluateBody =>
      rw [opened] at arguments
      simp only [Tree.evaluate, same.book, arguments, openBody_congr same opened]

theorem Tree.evaluateAll_congr (same : s.SameBook s') (bodies : Nat) :
    ∀ (args : List Tree) (room : Nat),
    (∀ n, .name n ∈ Tree.nodesOf args → s.resolve n = s'.resolve n) →
    Tree.evaluateAll (openBody bodies) s args room =
      Tree.evaluateAll (openBody bodies) s' args room
  | [], room, agree => by rw [Tree.evaluateAll, Tree.evaluateAll]
  | arg :: rest, room, agree => by
    have first := fun room => Tree.evaluate_congr same bodies arg room
      fun n member => agree n (by simp [Tree.nodesOf, member])
    have others := fun room => Tree.evaluateAll_congr same bodies rest room
      fun n member => agree n (by simp [Tree.nodesOf, member])
    simp only [Tree.evaluateAll, first, others]

end

theorem evaluate_congr (same : s.SameBook s') {formula : String}
    (agree : ∀ t, Tree.parse formula = .ok t → ∀ n, .name n ∈ t.nodes →
      s.resolve n = s'.resolve n) : evaluate s formula = evaluate s' formula := by
  have bodiesLeft : s.bodiesLeft = s'.bodiesLeft := by
    rw [Scope.bodiesLeft, Scope.bodiesLeft, same.depth]
  cases parsed : Tree.parse formula with
  | error fault => rw [evaluate, evaluate, parsed]
  | ok t =>
    simp only [evaluate, parsed, bodiesLeft, Tree.evaluate_congr same _ t _ (agree t parsed)]

end

/-- Every name has the same value in both scopes. -/
structure Scope.SameValues (s s' : Scope) : Prop where
  book : s.SameBook s'
  values : ∀ name, s.values.get? name = s'.values.get? name

theorem Scope.SameValues.resolve {s s' : Scope} (same : s.SameValues s') :
    s.resolve = s'.resolve :=
  funext fun name => s.resolve_congr same.book (same.values name) (same.values _)

theorem Scope.SameValues.evaluate {s s' : Scope} (same : s.SameValues s') (formula : String) :
    Formula.evaluate s formula = Formula.evaluate s' formula :=
  evaluate_congr same.book fun _ _ n _ => congrFun same.resolve n

end Formula

end Costing

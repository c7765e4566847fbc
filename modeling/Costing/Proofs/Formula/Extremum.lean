import Costing.Proofs.Formula.Evaluation
import Costing.Proofs.Formula.Tree

/-! # The one failure that is no fault

Whatever goes wrong in a formula is a fault of the formula, except that nothing catches a call for
the greatest or the least of one number alone.  `MeetsLoneExtremum` says, by the order in which a
tree is evaluated, that such a call is reached; `evaluate_eq_crash_iff` says that a formula crashes
exactly then.

A formula that crashes therefore has such a call in its own tree, or in the body of a registered
function (`asks_of_meets`), so that a look at the texts tells whether crashes are possible. -/

namespace Costing.Formula

open Machine (Callee callee callee_eq_builtin_iff callee_eq_shared_iff)

/-! ## Calls for an extremum of one number -/

def Builtin.isExtremum : Builtin → Bool
  | .max | .min => true
  | _ => false

/-- A call for the greatest or least of one number alone. -/
def Tree.isLoneExtremum : Tree → Bool
  | .call function [_] => (Builtin.ofName? function).any Builtin.isExtremum
  | _ => false

/-- A formula has a call for the greatest or least of one number alone. -/
def asksLoneExtremum (formula : String) : Bool :=
  match Tree.parse formula with
  | .ok t => t.nodes.any Tree.isLoneExtremum
  | .error _ => false

/-- The arguments of a call are evaluated: there is such a function, it takes as many arguments,
and its body may be opened. -/
def EvaluatesArguments (bodies : Nat) (s : Scope) (function : String) (count : Nat) : Prop :=
  (∃ f, Builtin.ofName? function = some f ∧ f.arity.accepts count = true) ∨
    Builtin.ofName? function = none ∧ 0 < bodies ∧
      ∃ g, s.book.functions.get? function = some g ∧ g.arity.accepts count = true

/-- The evaluation of a tree in a scope, with room left and bodies that may still be opened, reaches
a call for the greatest or least of one number alone. -/
inductive MeetsLoneExtremum : Nat → Scope → Tree → Nat → Prop where
  | here {bodies : Nat} {s : Scope} {function : String} {f : Builtin} {arg : Tree} {x : Float}
      {room rest : Nat} (named : Builtin.ofName? function = some f)
      (extremum : f.isExtremum = true) (spent : spend callRoom room = .ok rest)
      (value : arg.evaluate (openBody bodies) s rest = .ok x) :
      MeetsLoneExtremum bodies s (.call function [arg]) room
  | negate {bodies : Nat} {s : Scope} {operand : Tree} {room rest : Nat}
      (spent : spend operatorRoom room = .ok rest)
      (inside : MeetsLoneExtremum bodies s operand rest) :
      MeetsLoneExtremum bodies s (.negate operand) room
  | left {bodies : Nat} {s : Scope} {op : Operator} {left right : Tree} {room rest : Nat}
      (spent : spend operatorRoom room = .ok rest)
      (inside : MeetsLoneExtremum bodies s left rest) :
      MeetsLoneExtremum bodies s (.binary op left right) room
  | right {bodies : Nat} {s : Scope} {op : Operator} {left right : Tree} {x : Float}
      {room rest : Nat} (spent : spend operatorRoom room = .ok rest)
      (value : left.evaluate (openBody bodies) s rest = .ok x)
      (inside : MeetsLoneExtremum bodies s right rest) :
      MeetsLoneExtremum bodies s (.binary op left right) room
  | argument {bodies : Nat} {s : Scope} {function : String} {before after : List Tree}
      {arg : Tree} {room rest : Nat}
      (called : EvaluatesArguments bodies s function (before ++ arg :: after).length)
      (spent : spend callRoom room = .ok rest)
      (values : ∀ a ∈ before, ∃ x, a.evaluate (openBody bodies) s rest = .ok x)
      (inside : MeetsLoneExtremum bodies s arg rest) :
      MeetsLoneExtremum bodies s (.call function (before ++ arg :: after)) room
  | body {bodies : Nat} {s : Scope} {function : String} {g : SharedFunction} {args : List Tree}
      {xs : List Float} {t : Tree} {room rest : Nat} (shared : Builtin.ofName? function = none)
      (registered : s.book.functions.get? function = some g)
      (accepted : g.arity.accepts args.length = true) (spent : spend callRoom room = .ok rest)
      (values : Tree.evaluateAll (openBody (bodies + 1)) s args rest = .ok xs)
      (parsed : Tree.parse g.formula = .ok t)
      (inside : MeetsLoneExtremum bodies (s.forBody (bindArguments g xs)) t rest) :
      MeetsLoneExtremum (bodies + 1) s (.call function args) room

theorem not_meets_name {bodies : Nat} {s : Scope} {n : String} {room : Nat} :
    ¬MeetsLoneExtremum bodies s (.name n) room := nofun

/-! ## What does not crash by itself -/

theorem mapError_ofCause_ne_lone {x : Except Cause Float} :
    x.mapError Abort.ofCause ≠ .error .loneExtremum := by
  intro failed
  obtain ⟨cause, _, made⟩ := mapError_eq_error_iff.mp failed
  cases made

theorem Operator.apply_ne_lone {op : Operator} {x y : Float} {source : String} :
    op.apply x y source ≠ .error .loneExtremum := by
  cases op with
  | divide =>
    simp only [Operator.apply]
    split <;> exact nofun
  | power =>
    simp only [Operator.apply]
    split <;> exact nofun
  | _ => exact nofun

theorem Builtin.value?_eq_lone_iff {f : Builtin} {args : List Float} :
    f.value? args = some (.error .loneExtremum) ↔ f.isExtremum = true ∧ args.length = 1 := by
  have argument {x : Except ArgumentFault Float} :
      x.mapError Refusal.argument ≠ .error .loneExtremum := by
    intro failed
    obtain ⟨fault, _, made⟩ := mapError_eq_error_iff.mp failed
    cases made
  constructor
  · intro lone
    unfold Builtin.value? at lone
    split at lone <;> simp_all [Builtin.isExtremum]
  · rintro ⟨extremum, single⟩
    obtain ⟨x, rfl⟩ := List.length_eq_one_iff.mp single
    cases f <;> first | rfl | cases extremum

theorem callBuiltin_eq_lone_iff {f : Builtin} {args : List Float} {source : String} :
    callBuiltin f args source = .error .loneExtremum ↔ f.isExtremum = true ∧ args.length = 1 := by
  rw [← Builtin.value?_eq_lone_iff, callBuiltin]
  split <;> simp_all [Abort.ofCause]

theorem Builtin.accepts_one (f : Builtin) : f.arity.accepts 1 = true := by
  cases f <;> rfl

theorem Abort.within_eq_lone_iff {function : String} {a : Abort} :
    a.within function = .loneExtremum ↔ a = .loneExtremum := by
  cases a <;> simp [Abort.within]

theorem Machine.Callee.mark_eq_lone_iff {c : Callee} {a : Abort} :
    c.mark a = .loneExtremum ↔ a = .loneExtremum := by
  cases c with
  | builtin f source => exact Iff.rfl
  | shared g => exact Abort.within_eq_lone_iff

/-! ## The evaluation of a tree -/

theorem evaluatesArguments_iff {bodies : Nat} {s : Scope} {function source : String} {count : Nat} :
    EvaluatesArguments bodies s function count ↔
      ∃ c, callee s function count source = .ok c ∧ c.Opens (openBody bodies) := by
  have opens {g : SharedFunction} : 0 < bodies ↔ (Callee.shared g).Opens (openBody bodies) := by
    cases bodies <;> simp [openBody, Callee.Opens]
  constructor
  · rintro (⟨f, named, accepted⟩ | ⟨shared, left, g, registered, accepted⟩)
    · exact ⟨_, callee_eq_builtin_iff.mpr ⟨named, accepted, rfl⟩, trivial⟩
    · exact ⟨_, callee_eq_shared_iff.mpr ⟨shared, registered, accepted⟩, opens.mp left⟩
  · rintro ⟨c, called, opened⟩
    cases c with
    | builtin f text =>
      obtain ⟨named, accepted, -⟩ := callee_eq_builtin_iff.mp called
      exact .inl ⟨f, named, accepted⟩
    | shared g =>
      obtain ⟨shared, registered, accepted⟩ := callee_eq_shared_iff.mp called
      exact .inr ⟨shared, opens.mpr opened, g, registered, accepted⟩

/-- A call that crashes has an argument that does, asks for the extremum itself, or crashes in its
body. -/
theorem meets_of_call {bodies : Nat} {s : Scope} {function : String} {args : List Tree} {room : Nat}
    (below : ∀ lower, bodies = lower + 1 → ∀ s t room,
      t.evaluate (openBody lower) s room = .error .loneExtremum →
        MeetsLoneExtremum lower s t room)
    (each : ∀ arg ∈ args, ∀ room,
      arg.evaluate (openBody bodies) s room = .error .loneExtremum →
        MeetsLoneExtremum bodies s arg room)
    (crashed : (Tree.call function args).evaluate (openBody bodies) s room = .error .loneExtremum) :
    MeetsLoneExtremum bodies s (.call function args) room := by
  cases evaluate_call_eq_error_iff.mp crashed with
  | @argument c rest _ _ called opens spent inside mark =>
    obtain rfl := Callee.mark_eq_lone_iff.mp mark
    obtain ⟨before, arg, after, rfl, values, inside⟩ := evaluateAll_eq_error_iff.mp inside
    exact .argument (evaluatesArguments_iff.mpr ⟨c, called, opens⟩) spent values
      (each arg (by simp) rest inside)
  | builtin called spent values refused =>
    obtain ⟨named, -, -⟩ := callee_eq_builtin_iff.mp called
    obtain ⟨extremum, single⟩ := callBuiltin_eq_lone_iff.mp refused
    rw [length_of_evaluateAll values] at single
    obtain ⟨arg, rfl⟩ := List.length_eq_one_iff.mp single
    obtain ⟨x, value⟩ := evaluateAll_eq_ok_iff.mp ⟨_, values⟩ arg (.head _)
    exact .here named extremum spent value
  | body called opened spent values inside mark =>
    obtain ⟨shared, registered, accepted⟩ := callee_eq_shared_iff.mp called
    obtain rfl := Abort.within_eq_lone_iff.mp mark
    cases bodies with
    | zero => cases opened
    | succ lower =>
      obtain ⟨_, _, made⟩ | ⟨t, parsed, inside⟩ := (evaluateBody_eq_error_iff opened).mp inside
      · cases made
      · exact .body shared registered accepted spent values parsed (below lower rfl _ t _ inside)

theorem meets_of_evaluate {bodies : Nat} {s : Scope}
    (below : ∀ lower, bodies = lower + 1 → ∀ s t room,
      t.evaluate (openBody lower) s room = .error .loneExtremum →
        MeetsLoneExtremum lower s t room) : ∀ (t : Tree) (room : Nat),
    t.evaluate (openBody bodies) s room = .error .loneExtremum → MeetsLoneExtremum bodies s t room
  | .number text, room, crashed => by simp [Tree.evaluate] at crashed
  | .name n, room, crashed => by
    rw [Tree.evaluate] at crashed
    exact absurd crashed mapError_ofCause_ne_lone
  | .negate operand, room, crashed => by
    simp only [Tree.evaluate, bind_eq_error_iff] at crashed
    obtain spent | ⟨rest, spent, inside | ⟨_, _, made⟩⟩ := crashed
    · cases exhausted_of_spend spent
    · exact .negate spent (meets_of_evaluate below operand rest inside)
    · cases made
  | .binary op left right, room, crashed => by
    simp only [Tree.evaluate, bind_eq_error_iff] at crashed
    obtain spent | ⟨rest, spent, inside | ⟨x, value, inside | ⟨_, _, applied⟩⟩⟩ := crashed
    · cases exhausted_of_spend spent
    · exact .left spent (meets_of_evaluate below left rest inside)
    · exact .right spent value (meets_of_evaluate below right rest inside)
    · exact absurd applied Operator.apply_ne_lone
  | .call function args, room, crashed => by
    exact meets_of_call below
      (fun arg member =>
        have := List.sizeOf_lt_of_mem member
        meets_of_evaluate below arg) crashed

/-- A tree crashes exactly if its evaluation reaches a call for an extremum of one number. -/
theorem evaluate_eq_lone_iff {bodies : Nat} {s : Scope} {t : Tree} {room : Nat} :
    t.evaluate (openBody bodies) s room = .error .loneExtremum ↔
      MeetsLoneExtremum bodies s t room := by
  constructor
  · -- by the number of bodies that may be opened, and within one body along its tree
    induction bodies generalizing s t room with
    | zero => exact meets_of_evaluate (fun _ none => absurd none.symm (Nat.succ_ne_zero _)) t room
    | succ lower ih =>
      refine meets_of_evaluate (fun lower' succ s t room crashed => ?_) t room
      obtain rfl := Nat.succ.inj succ
      exact ih crashed
  · intro meets
    induction meets with
    | @here _ _ _ f _ _ _ _ named extremum spent value =>
      obtain ⟨xs, values⟩ := evaluateAll_eq_ok_iff.mpr (List.forall_mem_singleton.mpr ⟨_, value⟩)
      have single := length_of_evaluateAll values
      exact evaluate_call_eq_error_iff.mpr (.builtin
        (callee_eq_builtin_iff.mpr ⟨named, f.accepts_one, rfl⟩) spent values
        (callBuiltin_eq_lone_iff.mpr ⟨extremum, single⟩))
    | negate spent _ inside =>
      simp only [Tree.evaluate, bind_eq_error_iff]
      exact .inr ⟨_, spent, .inl inside⟩
    | left spent _ inside =>
      simp only [Tree.evaluate, bind_eq_error_iff]
      exact .inr ⟨_, spent, .inl inside⟩
    | right spent value _ inside =>
      simp only [Tree.evaluate, bind_eq_error_iff]
      exact .inr ⟨_, spent, .inr ⟨_, value, .inl inside⟩⟩
    | @argument _ _ _ before after arg _ _ called spent values _ inside =>
      obtain ⟨c, called, opens⟩ := evaluatesArguments_iff.mp called
      have crashed := evaluateAll_eq_error_iff.mpr ⟨before, arg, after, rfl, values, inside⟩
      exact evaluate_call_eq_error_iff.mpr
        (.argument called opens spent crashed (Callee.mark_eq_lone_iff.mpr rfl))
    | body shared registered accepted spent values parsed _ inside =>
      have crashed := (evaluateBody_eq_error_iff rfl).mpr (.inr ⟨_, parsed, inside⟩)
      exact evaluate_call_eq_error_iff.mpr (.body
        (callee_eq_shared_iff.mpr ⟨shared, registered, accepted⟩) rfl spent values crashed
        (Abort.within_eq_lone_iff.mpr rfl))

/-! ## Formulas -/

theorem isFinite_of_value {s : Scope} {formula : String} {x : Float}
    (value : evaluate s formula = .value x) : x.isFinite = true := by
  unfold evaluate at value
  split at value
  · cases value
  · split at value
    · split at value
      · next finite =>
        cases value
        exact finite
      · cases value
    · cases value
    · cases value
    · cases value

theorem outcome_of_ne_crash {s : Scope} {formula : String}
    (noCrash : evaluate s formula ≠ .crash) :
    (∃ x, evaluate s formula = .value x ∧ x.isFinite = true) ∨
      ∃ fault, evaluate s formula = .fault fault := by
  cases outcome : evaluate s formula with
  | value x => exact .inl ⟨x, rfl, isFinite_of_value outcome⟩
  | fault fault => exact .inr ⟨fault, rfl⟩
  | crash => exact absurd outcome noCrash

/-- The evaluation of a formula reaches a call for the greatest or least of one number alone. -/
def ReachesLoneExtremum (s : Scope) (formula : String) : Prop :=
  ∃ t, Tree.parse formula = .ok t ∧
    MeetsLoneExtremum s.bodiesLeft s t Settings.evaluationRoom

theorem evaluate_eq_crash_iff {s : Scope} {formula : String} :
    evaluate s formula = .crash ↔ ReachesLoneExtremum s formula := by
  unfold evaluate ReachesLoneExtremum
  cases Tree.parse formula with
  | error fault => simp
  | ok t =>
    simp only [Except.ok.injEq, exists_eq_left', ← evaluate_eq_lone_iff]
    cases t.evaluate (openBody s.bodiesLeft) s Settings.evaluationRoom with
    | ok x =>
      dsimp only
      split <;> simp
    | error a => cases a <;> simp

/-! ## What the texts tell -/

/-- The call that is met stands in the tree itself or in the body of a function. -/
theorem asks_of_meets {bodies : Nat} {s : Scope} {t : Tree} {room : Nat}
    (meets : MeetsLoneExtremum bodies s t room) :
    (∃ node ∈ t.nodes, node.isLoneExtremum = true) ∨
      ∃ name g, s.book.functions.get? name = some g ∧ asksLoneExtremum g.formula = true := by
  induction meets with
  | here named extremum =>
    exact .inl ⟨_, .head _, by simp [Tree.isLoneExtremum, named, extremum]⟩
  | negate _ _ ih =>
    exact ih.imp_left fun ⟨node, member, lone⟩ => ⟨node, .tail _ member, lone⟩
  | left _ _ ih =>
    exact ih.imp_left fun ⟨node, member, lone⟩ =>
      ⟨node, .tail _ (List.mem_append_left _ member), lone⟩
  | right _ _ _ ih =>
    exact ih.imp_left fun ⟨node, member, lone⟩ =>
      ⟨node, .tail _ (List.mem_append_right _ member), lone⟩
  | argument _ _ _ _ ih =>
    exact ih.imp_left fun ⟨node, member, lone⟩ =>
      ⟨node, .tail _ (Tree.mem_nodesOf.mpr ⟨_, by simp, member⟩), lone⟩
  | body _ registered _ _ _ parsed _ ih =>
    obtain ⟨node, member, lone⟩ | others := ih
    · refine .inr ⟨_, _, registered, ?_⟩
      rw [asksLoneExtremum, parsed]
      exact List.any_eq_true.mpr ⟨node, member, lone⟩
    · exact .inr others

end Costing.Formula

namespace Costing

/-- No body of a registered function asks for an extremum of one number. -/
def Pricebook.AsksNoLoneExtremum (book : Pricebook) : Prop :=
  ∀ name g, book.functions.get? name = some g → Formula.asksLoneExtremum g.formula = false

theorem Formula.not_meets_of_asks {s : Scope} (bodies : s.book.AsksNoLoneExtremum)
    {formula : String} (asks : asksLoneExtremum formula = false) :
    ¬ReachesLoneExtremum s formula := by
  rintro ⟨t, parsed, meets⟩
  obtain ⟨node, member, lone⟩ | ⟨name, g, registered, inBody⟩ := asks_of_meets meets
  · rw [asksLoneExtremum, parsed] at asks
    exact absurd lone (List.any_eq_false.mp asks node member)
  · rw [bodies name g registered] at inBody
    cases inBody

end Costing

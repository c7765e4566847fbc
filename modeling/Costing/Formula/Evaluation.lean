import Costing.Formula.Scope
import Costing.Formula.Tree.Parser

/-! # Evaluating formulas

Evaluation walks over the tree from left to right.  It either arrives at a number or stops at
the first fault, and a fault that arises during the call of a shared function is marked with
the innermost such call.

Two quantities bound the walk.  At most `Settings.maxFunctionDepth` bodies of shared functions
are open at once: `openBody` recurses on the number of bodies that may still be opened.  And
every node that waits for its operands takes some room, of which a formula has
`Settings.evaluationRoom`. -/

namespace Costing.Formula

/-- Why an evaluation stops without a number. -/
inductive Abort where
  | fault (fault : Fault)
  /-- The greatest or least of one number alone was asked for. -/
  | loneExtremum
  /-- No room was left. -/
  | exhausted

namespace Abort

/-- The abort for a cause that has just arisen. -/
def ofCause (c : Cause) : Abort := .fault { cause := c }

/-- Marks a fault as arisen during the call of a function. -/
def within (function : String) : Abort → Abort
  | .fault f => .fault (f.within function)
  | a => a

end Abort

/-- What is left of the room after a part of it is taken. -/
def spend (cost room : Nat) : Except Abort Nat :=
  if cost ≤ room then .ok (room - cost) else .error .exhausted

/-- The room that a waiting sign or operator takes. -/
def operatorRoom : Nat := 1

def callRoom : Nat := 3

/-- The value of an operator; `source` is the text of the whole expression. -/
def Operator.apply (op : Operator) (x y : Float) (source : String) : Except Abort Float :=
  match op with
  | .add => .ok (x + y)
  | .subtract => .ok (x - y)
  | .multiply => .ok (x * y)
  | .divide =>
    if y == 0 then .error (.ofCause (.evaluation (.divisionByZero source))) else .ok (x / y)
  | .power =>
    let z := Float.pow x y
    if x.isFinite && y.isFinite && !z.isFinite then
      .error (.ofCause (.evaluation (.invalidPower source)))
    else .ok z

/-- The values of the parameters of a shared function: the arguments from the left, and nothing
for the parameters without one. -/
def bindArguments (f : SharedFunction) (args : List Float) : Table String Tagged :=
  let missing : Table String Tagged :=
    .ofList (f.parameters.map fun p => (p.name.text, Tagged.missing))
  missing.insertAll ((f.parameters.zip args).map fun (p, x) => (p.name.text, .number x))

/-- Evaluates the body of a shared function for its arguments, called from a scope. -/
abbrev BodyEvaluator := Scope → SharedFunction → Table String Tagged → Nat → Except Abort Float

/-- The value of a built-in function for evaluated arguments. -/
def callBuiltin (f : Builtin) (args : List Float) (source : String) : Except Abort Float :=
  match f.value? args with
  | some (.ok x) => .ok x
  | some (.error (.argument reason)) =>
    .error (.ofCause (.evaluation (.invalidArgument source reason)))
  | some (.error .loneExtremum) => .error .loneExtremum
  | none => .error (.ofCause (.arity (.builtin f.name f.arity args.length source)))

mutual

/-- The value of a tree in a scope.  `body` evaluates the bodies of shared functions; there is
none when no further body may be opened. -/
def Tree.evaluate (body : Option BodyEvaluator) (s : Scope) : Tree → Nat → Except Abort Float
  | .number text, _ => .ok (Tree.numeral text)
  | .name n, _ => (s.resolve n).mapError .ofCause
  | .negate operand, room => do
    let room ← spend operatorRoom room
    let x ← operand.evaluate body s room
    pure (-x)
  | .binary op left right, room => do
    let room ← spend operatorRoom room
    let x ← left.evaluate body s room
    let y ← right.evaluate body s room
    op.apply x y (Tree.binary op left right).source
  | .call function args, room =>
    match Builtin.ofName? function with
    | some f =>
      if f.arity.accepts args.length then do
        let room ← spend callRoom room
        let xs ← Tree.evaluateAll body s args room
        callBuiltin f xs (Tree.call function args).source
      else
        .error (.ofCause (.arity
          (.builtin f.name f.arity args.length (Tree.call function args).source)))
    | none =>
      match s.book.functions.get? function with
      | some f =>
        if f.arity.accepts args.length then
          match body with
          | none => .error (.ofCause (.evaluation (.tooManyBodies f.name.text)))
          | some evaluateBody => do
            let room ← spend callRoom room
            (do let xs ← Tree.evaluateAll body s args room
                evaluateBody s f (bindArguments f xs) room).mapError (Abort.within f.name.text)
        else
          .error (.ofCause (.arity
            (.shared f.name.text f.arity args.length (Tree.call function args).source)))
      | none => .error (.ofCause (.unknownName (.unknownFunction function)))

/-- The values of arguments from left to right. -/
def Tree.evaluateAll (body : Option BodyEvaluator) (s : Scope) :
    List Tree → Nat → Except Abort (List Float)
  | [], _ => .ok []
  | arg :: rest, room => do
    let x ← arg.evaluate body s room
    let xs ← Tree.evaluateAll body s rest room
    pure (x :: xs)

end

/-- Evaluates bodies of shared functions, of which a number may still be open inside one
another. -/
def openBody : Nat → Option BodyEvaluator
  | 0 => none
  | bodies + 1 => some fun s f arguments room =>
    match Tree.parse f.formula with
    | .error fault => .error (.ofCause (.malformed fault))
    | .ok tree => tree.evaluate (openBody bodies) (s.forBody arguments) room

/-- How many bodies may still be opened in a scope. -/
def Scope.bodiesLeft (s : Scope) : Nat := Settings.maxFunctionDepth - s.depth

/-- What comes of a formula. -/
inductive Outcome where
  | value (value : Float)
  | fault (fault : Fault)
  /-- The greatest or least of one number alone was asked for. -/
  | crash

/-- The one failure that no fault reports and that ends whatever computation it happens in. -/
inductive Crash where
  /-- The greatest or least of one number alone was asked for. -/
  | loneExtremum
deriving DecidableEq

def Outcome.settled : Outcome → Except Crash (Except Fault Float)
  | .value x => .ok (.ok x)
  | .fault f => .ok (.error f)
  | .crash => .error .loneExtremum

/-- The outcome of a formula in a scope: a finite number, a fault or a crash. -/
def evaluate (s : Scope) (formula : String) : Outcome :=
  match Tree.parse formula with
  | .error fault => .fault { cause := .malformed fault }
  | .ok tree =>
    match tree.evaluate (openBody s.bodiesLeft) s Settings.evaluationRoom with
    | .ok x =>
      if x.isFinite then .value x else .fault { cause := .evaluation (.notFinite formula) }
    | .error (.fault f) => .fault f
    | .error .loneExtremum => .crash
    | .error .exhausted => .fault { cause := .evaluation (.outOfRoom formula) }

end Costing.Formula

import Costing.Decimal.Binary
import Costing.Fault

/-! # Built-in functions and constants -/

namespace Costing.Formula

/-- The built-in functions. -/
inductive Builtin where
  | sqrt | abs | round | ceil | floor | max | min | sin | cos | tan | log | exp
deriving DecidableEq

def constants : List (String × Float) :=
  [("pi", 3.141592653589793), ("e", 2.718281828459045)]

def constant? (name : String) : Option Float :=
  (constants.find? fun c => c.1 == name).map (·.2)

/-- Why a built-in function gives no number. -/
inductive Refusal where
  /-- The arguments are outside its domain. -/
  | argument (fault : ArgumentFault)
  /-- The greatest or least of one number alone is asked for, which is not caught anywhere. -/
  | loneExtremum
deriving DecidableEq

namespace Builtin

def all : List Builtin :=
  [.sqrt, .abs, .round, .ceil, .floor, .max, .min, .sin, .cos, .tan, .log, .exp]

def name : Builtin → String
  | .sqrt => "sqrt"
  | .abs => "abs"
  | .round => "round"
  | .ceil => "ceil"
  | .floor => "floor"
  | .max => "max"
  | .min => "min"
  | .sin => "sin"
  | .cos => "cos"
  | .tan => "tan"
  | .log => "log"
  | .exp => "exp"

def ofName? (s : String) : Option Builtin := all.find? (·.name == s)

def arity : Builtin → Arity
  | .round | .log => ⟨1, some 2⟩
  | .max | .min => ⟨1, none⟩
  | _ => ⟨1, some 1⟩

/-! ## Values -/

/-- The whole number that `rounding` takes from a machine number. -/
def wholeOf (rounding : Decimal.Binary → Int) (x : Float) : Except ArgumentFault Int :=
  match Decimal.Binary.ofFloat? x with
  | some b => .ok (rounding b)
  | none => .error (if x.isNaN then .undefinedToWhole else .infinityToWhole)

/-- `x` rounded to decimal places, a half upwards; the number of places is rounded likewise. -/
def roundHalfUp (x decimals : Float) : Except ArgumentFault Float := do
  let places ← wholeOf Decimal.Binary.floor (decimals + 0.5)
  if 300 < places.natAbs then throw (.places places)
  let factor := Float.pow 10.0 (Float.ofInt places)
  let whole ← wholeOf Decimal.Binary.floor (x * factor + 0.5)
  pure (Float.ofInt whole / factor)

def squareRoot (x : Float) : Except ArgumentFault Float :=
  if x < 0 then .error .rootOfNegative else .ok x.sqrt

def naturalLog (x : Float) : Except ArgumentFault Float :=
  if x ≤ 0 then .error .logOfNonPositive else .ok x.log

def logTo (x base : Float) : Except ArgumentFault Float :=
  if x ≤ 0 then .error .logOfNonPositive
  else if base ≤ 0 || base == 1 then .error .logBase
  else .ok (x.log / base.log)

/-- A function of angles, which has no value at infinity. -/
def ofAngle (f : Float → Float) (x : Float) : Except ArgumentFault Float :=
  if x.isInf then .error .domain else .ok (f x)

def exponential (x : Float) : Except ArgumentFault Float :=
  if x.isFinite && x.exp.isInf then .error .range else .ok x.exp

/-- The first of the numbers that no later one beats. -/
def extremum (beats : Float → Float → Bool) (first : Float) (rest : List Float) : Float :=
  rest.foldl (fun best x => if beats x best then x else best) first

/-- The value of a built-in function; nothing if the number of arguments is not acceptable. -/
def value? (f : Builtin) (args : List Float) : Option (Except Refusal Float) :=
  match f, args with
  | .sqrt, [x] => some ((squareRoot x).mapError .argument)
  | .abs, [x] => some (.ok x.abs)
  | .round, [x] => some ((roundHalfUp x 0).mapError .argument)
  | .round, [x, decimals] => some ((roundHalfUp x decimals).mapError .argument)
  | .ceil, [x] => some (((wholeOf Decimal.Binary.ceil x).map Float.ofInt).mapError .argument)
  | .floor, [x] => some (((wholeOf Decimal.Binary.floor x).map Float.ofInt).mapError .argument)
  | .max, [_] | .min, [_] => some (.error .loneExtremum)
  | .max, x :: rest => some (.ok (extremum (fun a b => a > b) x rest))
  | .min, x :: rest => some (.ok (extremum (fun a b => a < b) x rest))
  | .sin, [x] => some ((ofAngle Float.sin x).mapError .argument)
  | .cos, [x] => some ((ofAngle Float.cos x).mapError .argument)
  | .tan, [x] => some ((ofAngle Float.tan x).mapError .argument)
  | .log, [x] => some ((naturalLog x).mapError .argument)
  | .log, [x, base] => some ((logTo x base).mapError .argument)
  | .exp, [x] => some ((exponential x).mapError .argument)
  | _, _ => none

end Builtin

/-- The names of built-in functions and constants, in order. -/
def mathNames : List String :=
  ["abs", "ceil", "cos", "e", "exp", "floor", "log", "max", "min", "pi", "round", "sin", "sqrt",
   "tan"]

end Costing.Formula

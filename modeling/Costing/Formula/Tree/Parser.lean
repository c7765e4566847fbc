import Costing.Formula.Tree
import Costing.Settings

/-! # Parsing formulas

The grammar, loosest first:

* an expression is terms with `+` or `-` between them, grouped from the left;
* a term is unaries with `*` or `/` between them, grouped from the left;
* a unary is a sign before a unary, or a power;
* a power is a primary, or a primary, `^` and a unary;
* a primary is a number, a name, a call of a name without a point, or an expression in
  parentheses.

Parentheses, signs and powers all pass through unaries, so the nesting of unaries bounds how
deep a formula nests.  `unaryAt` recurses on the room that is left for them; the other
categories take the parser of unaries as an argument. -/

namespace Costing.Formula.Parser

/-- Reads a tree off the front of a list of tokens. -/
abbrev Reading := List Token → Except SyntaxFault (Tree × List Token)

/-- The fault of a token that cannot stand where it does; no token is the end of the text. -/
def unexpected : List Token → SyntaxFault
  | [] => .incomplete
  | .number text :: _ => .unexpectedNumber text
  | .name text :: _ => .unexpectedName text
  | .symbol .closing :: _ => .strayClosing
  | .symbol s :: _ => .unexpectedSymbol (String.singleton s.char)

/-- The fault where a closing parenthesis is missing. -/
def expectedClosing : List Token → SyntaxFault
  | [] => .unclosed
  | ts => unexpected ts

def additive? : Symbol → Option Operator
  | .plus => some .add
  | .minus => some .subtract
  | _ => none

def multiplicative? : Symbol → Option Operator
  | .times => some .multiply
  | .over => some .divide
  | _ => none

/-- Further operands behind `left`, as long as operators follow.  Each round takes an operator
off the tokens, so their number bounds the rounds. -/
def chainAfter (op? : Symbol → Option Operator) (operand : Reading) :
    Nat → Tree → List Token → Except SyntaxFault (Tree × List Token)
  | 0, left, ts => .ok (left, ts)
  | rounds + 1, left, ts =>
    match ts with
    | .symbol s :: rest =>
      match op? s with
      | some op => do
        let (right, rest) ← operand rest
        chainAfter op? operand rounds (.binary op left right) rest
      | none => .ok (left, ts)
    | _ => .ok (left, ts)

def chain (op? : Symbol → Option Operator) (operand : Reading) : Reading := fun ts => do
  let (first, rest) ← operand ts
  chainAfter op? operand rest.length first rest

def term (unary : Reading) : Reading := chain multiplicative? unary

def expression (unary : Reading) : Reading := chain additive? (term unary)

/-- Further arguments up to the closing parenthesis.  Each round takes a token. -/
def argumentsFrom (argument : Reading) :
    Nat → List Token → Except SyntaxFault (List Tree × List Token)
  | 0, ts => .error (expectedClosing ts)
  | rounds + 1, ts => do
    let (first, rest) ← argument ts
    match rest with
    | .symbol .comma :: rest => do
      let (others, rest) ← argumentsFrom argument rounds rest
      pure (first :: others, rest)
    | .symbol .closing :: rest => pure ([first], rest)
    | rest => .error (expectedClosing rest)

/-- The arguments of a call, its opening parenthesis already taken. -/
def arguments (argument : Reading) (ts : List Token) :
    Except SyntaxFault (List Tree × List Token) :=
  match ts with
  | .symbol .closing :: rest => .ok ([], rest)
  | _ => argumentsFrom argument (ts.length + 1) ts

def primary (unary : Reading) : Reading
  | .number text :: rest => .ok (.number text, rest)
  | .name name :: .symbol .opening :: rest =>
    if 0 < Token.points name then .error (.dottedCall name)
    else do
      let (args, rest) ← arguments (expression unary) rest
      pure (.call name args, rest)
  | .name name :: rest => .ok (.name name, rest)
  | .symbol .opening :: rest => do
    let (inner, rest) ← expression unary rest
    match rest with
    | .symbol .closing :: rest => pure (inner, rest)
    | rest => .error (expectedClosing rest)
  | ts => .error (unexpected ts)

def power (unary : Reading) : Reading := fun ts => do
  let (base, rest) ← primary unary ts
  match rest with
  | .symbol .power :: rest => do
    let (exponent, rest) ← unary rest
    pure (.binary .power base exponent, rest)
  | rest => pure (base, rest)

/-- A unary, with room for a number of unaries inside one another. -/
def unaryAt : Nat → Reading
  | 0 => fun _ => .error .nestedTooDeeply
  | room + 1 => fun ts =>
    match ts with
    | .symbol .minus :: rest => do
      let (operand, rest) ← unaryAt room rest
      pure (.negate operand, rest)
    | .symbol .plus :: rest => unaryAt room rest
    | ts => power (unaryAt room) ts

/-- The tree of a whole list of tokens. -/
def ofTokens (ts : List Token) : Except SyntaxFault Tree :=
  match ts with
  | [] => .error .empty
  | _ => do
    let (tree, rest) ← expression (unaryAt Settings.maxNesting) ts
    match rest with
    | [] => pure tree
    | rest => .error (unexpected rest)

end Parser

/-- The tree of a formula.  Blank ends are ignored, and trees that are too tall are refused. -/
def Tree.parse (formula : String) : Except SyntaxFault Tree := do
  let tokens ← Token.ofText (Text.strip formula)
  let tree ← Parser.ofTokens tokens
  if Settings.maxHeight < tree.height then .error .tooTall else pure tree

end Costing.Formula

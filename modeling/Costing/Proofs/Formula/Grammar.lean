import Costing.Formula.Tree.Parser

/-! # The grammar of formulas

`Derives room phrase tokens` says that the tokens are a phrase of the grammar, with at most
`room` unaries open inside one another.  A phrase names its category together with the tree, or
the trees, that the tokens stand for:

* `expression` and `term` group from the left;
* in a `power` the exponent is a unary, so it admits a sign and groups to the right, while a
  sign in front of the power stands outside it;
* `arguments` are one expression or more, with commas between them.

The relation knows nothing of the parser.  `Derives.mono` widens the room, and
`head_of_primary` and `head_ne_closing` say how phrases begin. -/

namespace Costing.Formula

/-- A category of the grammar, and what a phrase of it stands for. -/
inductive Phrase where
  | expression (tree : Tree)
  | term (tree : Tree)
  | unary (tree : Tree)
  | power (tree : Tree)
  | primary (tree : Tree)
  | arguments (trees : List Tree)

/-- The trees that a phrase stands for. -/
def Phrase.trees : Phrase → List Tree
  | .expression t | .term t | .unary t | .power t | .primary t => [t]
  | .arguments trees => trees

/-- The operators of expressions. -/
inductive Additive : Symbol → Operator → Prop where
  | plus : Additive .plus .add
  | minus : Additive .minus .subtract

/-- The operators of terms. -/
inductive Multiplicative : Symbol → Operator → Prop where
  | times : Multiplicative .times .multiply
  | over : Multiplicative .over .divide

/-- The phrases of the grammar.  Only a unary uses up room. -/
inductive Derives : Nat → Phrase → List Token → Prop where
  | expression {room t ts} (only : Derives room (.term t) ts) : Derives room (.expression t) ts
  | sum {room s op left right ts us} (operator : Additive s op)
      (before : Derives room (.expression left) ts) (after : Derives room (.term right) us) :
      Derives room (.expression (.binary op left right)) (ts ++ .symbol s :: us)
  | term {room t ts} (only : Derives room (.unary t) ts) : Derives room (.term t) ts
  | product {room s op left right ts us} (operator : Multiplicative s op)
      (before : Derives room (.term left) ts) (after : Derives room (.unary right) us) :
      Derives room (.term (.binary op left right)) (ts ++ .symbol s :: us)
  | negative {room t ts} (operand : Derives room (.unary t) ts) :
      Derives (room + 1) (.unary (.negate t)) (.symbol .minus :: ts)
  | positive {room t ts} (operand : Derives room (.unary t) ts) :
      Derives (room + 1) (.unary t) (.symbol .plus :: ts)
  | unsigned {room t ts} (only : Derives room (.power t) ts) : Derives (room + 1) (.unary t) ts
  | base {room t ts} (only : Derives room (.primary t) ts) : Derives room (.power t) ts
  | raised {room base exponent ts us} (below : Derives room (.primary base) ts)
      (above : Derives room (.unary exponent) us) :
      Derives room (.power (.binary .power base exponent)) (ts ++ .symbol .power :: us)
  | number {room text} : Derives room (.primary (.number text)) [.number text]
  | name {room name} : Derives room (.primary (.name name)) [.name name]
  | emptyCall {room name} (plain : Token.points name = 0) :
      Derives room (.primary (.call name [])) [.name name, .symbol .opening, .symbol .closing]
  | call {room name args ts} (plain : Token.points name = 0)
      (given : Derives room (.arguments args) ts) :
      Derives room (.primary (.call name args))
        (.name name :: .symbol .opening :: (ts ++ [.symbol .closing]))
  | group {room t ts} (inner : Derives room (.expression t) ts) :
      Derives room (.primary t) (.symbol .opening :: (ts ++ [.symbol .closing]))
  | lastArgument {room t ts} (only : Derives room (.expression t) ts) :
      Derives room (.arguments [t]) ts
  | nextArgument {room t others ts us} (first : Derives room (.expression t) ts)
      (further : Derives room (.arguments others) us) :
      Derives room (.arguments (t :: others)) (ts ++ .symbol .comma :: us)

/-- What fits into some room fits into more. -/
theorem Derives.mono {room wider : Nat} {phrase : Phrase} {ts : List Token}
    (derivation : Derives room phrase ts) (fits : room ≤ wider) : Derives wider phrase ts := by
  induction derivation generalizing wider with
  | expression _ ih => exact .expression (ih fits)
  | sum operator _ _ ihBefore ihAfter => exact .sum operator (ihBefore fits) (ihAfter fits)
  | term _ ih => exact .term (ih fits)
  | product operator _ _ ihBefore ihAfter =>
    exact .product operator (ihBefore fits) (ihAfter fits)
  | negative _ ih =>
    obtain ⟨smaller, rfl⟩ := Nat.exists_eq_add_of_le' (Nat.le_of_add_left_le fits)
    exact .negative (ih (Nat.le_of_succ_le_succ fits))
  | positive _ ih =>
    obtain ⟨smaller, rfl⟩ := Nat.exists_eq_add_of_le' (Nat.le_of_add_left_le fits)
    exact .positive (ih (Nat.le_of_succ_le_succ fits))
  | unsigned _ ih =>
    obtain ⟨smaller, rfl⟩ := Nat.exists_eq_add_of_le' (Nat.le_of_add_left_le fits)
    exact .unsigned (ih (Nat.le_of_succ_le_succ fits))
  | base _ ih => exact .base (ih fits)
  | raised _ _ ihBelow ihAbove => exact .raised (ihBelow fits) (ihAbove fits)
  | number => exact .number
  | name => exact .name
  | emptyCall plain => exact .emptyCall plain
  | call plain _ ih => exact .call plain (ih fits)
  | group _ ih => exact .group (ih fits)
  | lastArgument _ ih => exact .lastArgument (ih fits)
  | nextArgument _ _ ihFirst ihFurther => exact .nextArgument (ihFirst fits) (ihFurther fits)

/-- What holds of all tokens holds of those on either side of one. -/
theorem forall_sides {P : Token → Prop} {ts us : List Token} {t : Token}
    (all : ∀ u ∈ ts ++ t :: us, P u) : (∀ u ∈ ts, P u) ∧ ∀ u ∈ us, P u := by
  obtain ⟨before, after⟩ := List.forall_mem_append.mp all
  exact ⟨before, (List.forall_mem_cons.mp after).2⟩

/-! ## How phrases begin -/

/-- The tokens that a primary may begin with. -/
inductive BeginsPrimary : Token → Prop where
  | number {text} : BeginsPrimary (.number text)
  | name {name} : BeginsPrimary (.name name)
  | opening : BeginsPrimary (.symbol .opening)

theorem head_of_primary {room : Nat} {t : Tree} {ts : List Token}
    (derivation : Derives room (.primary t) ts) :
    ∃ first others, ts = first :: others ∧ BeginsPrimary first := by
  cases derivation with
  | number => exact ⟨_, _, rfl, .number⟩
  | name => exact ⟨_, _, rfl, .name⟩
  | emptyCall plain => exact ⟨_, _, rfl, .name⟩
  | call plain given => exact ⟨_, _, rfl, .name⟩
  | group inner => exact ⟨_, _, rfl, .opening⟩

theorem head_of_power {room : Nat} {t : Tree} {ts : List Token}
    (derivation : Derives room (.power t) ts) :
    ∃ first others, ts = first :: others ∧ BeginsPrimary first := by
  cases derivation with
  | base only => exact head_of_primary only
  | raised below above =>
    obtain ⟨first, others, rfl, begins⟩ := head_of_primary below
    exact ⟨first, _, rfl, begins⟩

/-- No phrase is empty, and none begins with a closing parenthesis. -/
theorem head_ne_closing {room : Nat} {phrase : Phrase} {ts : List Token}
    (derivation : Derives room phrase ts) :
    ∃ first others, ts = first :: others ∧ first ≠ .symbol .closing := by
  induction derivation with
  | expression _ ih => exact ih
  | term _ ih => exact ih
  | unsigned _ ih => exact ih
  | base _ ih => exact ih
  | lastArgument _ ih => exact ih
  | sum _ _ _ ih _ =>
    obtain ⟨first, others, rfl, begins⟩ := ih
    exact ⟨first, _, rfl, begins⟩
  | product _ _ _ ih _ =>
    obtain ⟨first, others, rfl, begins⟩ := ih
    exact ⟨first, _, rfl, begins⟩
  | raised _ _ ih _ =>
    obtain ⟨first, others, rfl, begins⟩ := ih
    exact ⟨first, _, rfl, begins⟩
  | nextArgument _ _ ih _ =>
    obtain ⟨first, others, rfl, begins⟩ := ih
    exact ⟨first, _, rfl, begins⟩
  | negative => exact ⟨_, _, rfl, nofun⟩
  | positive => exact ⟨_, _, rfl, nofun⟩
  | number => exact ⟨_, _, rfl, nofun⟩
  | name => exact ⟨_, _, rfl, nofun⟩
  | emptyCall => exact ⟨_, _, rfl, nofun⟩
  | call => exact ⟨_, _, rfl, nofun⟩
  | group => exact ⟨_, _, rfl, nofun⟩

end Costing.Formula

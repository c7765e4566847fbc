import Costing.Proofs.Formula.Grammar
import Costing.Proofs.Formula.Lexing

/-! # The parser reads the grammar

`sound_unaryAt` shows that what the parser takes off the tokens is a phrase of the grammar, by
induction on the room; `completes_of_derives` shows that the parser takes every phrase off the
tokens in front of it, by induction on the derivation.  The two meet in
`parse_iff_derives`. -/

namespace Costing.Formula

open Costing.Formula.Parser

theorem additive?_eq_some_iff {s : Symbol} {op : Operator} :
    additive? s = some op ↔ Additive s op := by
  constructor
  · intro found
    cases s <;> cases found <;> constructor
  · intro operator
    cases operator <;> rfl

theorem multiplicative?_eq_some_iff {s : Symbol} {op : Operator} :
    multiplicative? s = some op ↔ Multiplicative s op := by
  constructor
  · intro found
    cases s <;> cases found <;> constructor
  · intro operator
    cases operator <;> rfl

/-! ## What is read is a phrase -/

/-- Whatever a reading takes off the tokens is a phrase of the category. -/
def Sound (room : Nat) (category : Tree → Phrase) (reading : Reading) : Prop :=
  ∀ {ts t rest}, reading ts = .ok (t, rest) →
    ∃ front, ts = front ++ rest ∧ Derives room (category t) front

/-- A chain groups from the left: an operator and an operand extend what stands before them. -/
def Extends (room : Nat) (op? : Symbol → Option Operator) (outer inner : Tree → Phrase) : Prop :=
  ∀ {s op left right ts us}, op? s = some op → Derives room (outer left) ts →
    Derives room (inner right) us →
    Derives room (outer (.binary op left right)) (ts ++ .symbol s :: us)

theorem extends_expression {room : Nat} : Extends room additive? .expression .term :=
  fun found before after => .sum (additive?_eq_some_iff.mp found) before after

theorem extends_term {room : Nat} : Extends room multiplicative? .term .unary :=
  fun found before after => .product (multiplicative?_eq_some_iff.mp found) before after

section
variable {room : Nat}

/-- The derivation of the left operand grows by what each round reads. -/
theorem derives_of_chainAfter {op? : Symbol → Option Operator} {outer inner : Tree → Phrase}
    {operand : Reading} (extend : Extends room op? outer inner) (sound : Sound room inner operand)
    {rounds : Nat} {left t : Tree} {ts front rest : List Token}
    (before : Derives room (outer left) front)
    (read : chainAfter op? operand rounds left ts = .ok (t, rest)) :
    ∃ more, ts = more ++ rest ∧ Derives room (outer t) (front ++ more) := by
  induction rounds generalizing left ts front with
  | zero =>
    cases read
    exact ⟨[], rfl, by rwa [List.append_nil]⟩
  | succ rounds ih =>
    -- a round that finds no operator leaves all tokens behind
    have stopped : (Except.ok (left, ts) : Except SyntaxFault _) = .ok (t, rest) →
        ∃ more, ts = more ++ rest ∧ Derives room (outer t) (front ++ more) := by
      rintro ⟨⟩
      exact ⟨[], rfl, by rwa [List.append_nil]⟩
    unfold chainAfter at read
    split at read
    · split at read
      · next s after _ op found =>
        obtain ⟨⟨right, behind⟩, readRight, further⟩ := bind_eq_ok_iff.mp read
        obtain ⟨us, rfl, derivation⟩ := sound readRight
        -- the left operand of the next round ends behind `us`
        obtain ⟨more, rfl, whole⟩ := ih (extend found before derivation) further
        exact ⟨.symbol s :: us ++ more, by simp, by simpa using whole⟩
      · exact stopped read
    · exact stopped read

theorem sound_chain {op? : Symbol → Option Operator} {outer inner : Tree → Phrase}
    {operand : Reading} (extend : Extends room op? outer inner)
    (single : ∀ {t ts}, Derives room (inner t) ts → Derives room (outer t) ts)
    (sound : Sound room inner operand) : Sound room outer (chain op? operand) := by
  intro ts t rest read
  obtain ⟨⟨first, behind⟩, readFirst, further⟩ := bind_eq_ok_iff.mp read
  obtain ⟨front, rfl, derivation⟩ := sound readFirst
  obtain ⟨more, rfl, whole⟩ := derives_of_chainAfter extend sound (single derivation) further
  exact ⟨front ++ more, by simp, whole⟩

theorem sound_expression {unary : Reading} (sound : Sound room .unary unary) :
    Sound room .expression (expression unary) :=
  sound_chain extends_expression .expression (sound_chain extends_term .term sound)

theorem derives_of_argumentsFrom {argument : Reading}
    (sound : Sound room .expression argument) {rounds : Nat} {ts rest : List Token}
    {trees : List Tree} (read : argumentsFrom argument rounds ts = .ok (trees, rest)) :
    ∃ front, ts = front ++ .symbol .closing :: rest ∧
      Derives room (.arguments trees) front := by
  induction rounds generalizing ts trees with
  | zero => cases read
  | succ rounds ih =>
    unfold argumentsFrom at read
    obtain ⟨⟨first, behind⟩, readFirst, further⟩ := bind_eq_ok_iff.mp read
    obtain ⟨front, rfl, derivation⟩ := sound readFirst
    dsimp only at further
    split at further
    · next after =>
      obtain ⟨⟨others, last⟩, readOthers, result⟩ := bind_eq_ok_iff.mp further
      cases result
      obtain ⟨more, rfl, whole⟩ := ih readOthers
      exact ⟨front ++ .symbol .comma :: more, by simp, .nextArgument derivation whole⟩
    · cases further
      exact ⟨front, rfl, .lastArgument derivation⟩
    · cases further

theorem sound_primary {unary : Reading} (sound : Sound room .unary unary) :
    Sound room .primary (primary unary) := by
  intro ts t rest read
  unfold primary at read
  split at read
  · cases read
    exact ⟨_, rfl, .number⟩
  · next name after =>
    split at read
    · cases read
    · next plain =>
      obtain ⟨⟨args, behind⟩, readArgs, result⟩ := bind_eq_ok_iff.mp read
      cases result
      unfold arguments at readArgs
      split at readArgs
      · cases readArgs
        exact ⟨_, rfl, .emptyCall (Nat.eq_zero_of_not_pos plain)⟩
      · obtain ⟨front, rfl, derivation⟩ :=
          derives_of_argumentsFrom (sound_expression sound) readArgs
        exact ⟨_, by simp, .call (Nat.eq_zero_of_not_pos plain) derivation⟩
  · cases read
    exact ⟨_, rfl, .name⟩
  · obtain ⟨⟨inner, behind⟩, readInner, further⟩ := bind_eq_ok_iff.mp read
    obtain ⟨front, rfl, derivation⟩ := sound_expression sound readInner
    dsimp only at further
    split at further
    · cases further
      exact ⟨_, by simp, .group derivation⟩
    · cases further
  · cases read

theorem sound_power {unary : Reading} (sound : Sound room .unary unary) :
    Sound room .power (power unary) := by
  intro ts t rest read
  obtain ⟨⟨below, behind⟩, readBelow, further⟩ := bind_eq_ok_iff.mp read
  obtain ⟨front, rfl, derivation⟩ := sound_primary sound readBelow
  dsimp only at further
  split at further
  · obtain ⟨⟨exponent, last⟩, readExponent, result⟩ := bind_eq_ok_iff.mp further
    cases result
    obtain ⟨more, rfl, above⟩ := sound readExponent
    exact ⟨front ++ .symbol .power :: more, by simp, .raised derivation above⟩
  · cases further
    exact ⟨front, rfl, .base derivation⟩

end

theorem sound_unaryAt (room : Nat) : Sound room .unary (unaryAt room) := by
  induction room with
  | zero =>
    intro ts t rest read
    cases read
  | succ room ih =>
    intro ts t rest read
    unfold unaryAt at read
    dsimp only at read
    split at read
    · obtain ⟨⟨operand, behind⟩, readOperand, result⟩ := bind_eq_ok_iff.mp read
      cases result
      obtain ⟨front, rfl, derivation⟩ := ih readOperand
      exact ⟨.symbol .minus :: front, rfl, .negative derivation⟩
    · obtain ⟨front, rfl, derivation⟩ := ih read
      exact ⟨.symbol .plus :: front, rfl, .positive derivation⟩
    · obtain ⟨front, rfl, derivation⟩ := sound_power ih read
      exact ⟨front, rfl, .unsigned derivation⟩

/-- Readings leave a part of the tokens behind. -/
theorem Sound.length_le {room : Nat} {category : Tree → Phrase} {reading : Reading}
    (sound : Sound room category reading) {ts rest : List Token} {t : Tree}
    (read : reading ts = .ok (t, rest)) : rest.length ≤ ts.length := by
  obtain ⟨front, rfl, _⟩ := sound read
  rw [List.length_append]
  exact Nat.le_add_left ..

/-! ## Every phrase is read

A phrase is read in front of any tokens that cannot continue it. -/

/-- None of the symbols comes first. -/
def Stops (symbols : List Symbol) (rest : List Token) : Prop :=
  ∀ s ∈ symbols, rest.head? ≠ some (.symbol s)

theorem Stops.mono {symbols more : List Symbol} {rest : List Token} (stop : Stops more rest)
    (fewer : symbols ⊆ more) : Stops symbols rest :=
  fun s member => stop s (fewer member)

theorem stops_nil (symbols : List Symbol) : Stops symbols [] := nofun

theorem stops_cons {symbols : List Symbol} {s : Symbol} (other : s ∉ symbols)
    (rest : List Token) : Stops symbols (.symbol s :: rest) := by
  rintro r member same
  cases same
  exact other member

/-- Once there are as many rounds as tokens, more of them change nothing. -/
theorem chainAfter_rounds {op? : Symbol → Option Operator} {operand : Reading}
    (shrinks : ∀ {ts t rest}, operand ts = .ok (t, rest) → rest.length ≤ ts.length)
    {rounds more : Nat} {left : Tree} {ts : List Token} (enough : ts.length ≤ rounds)
    (enoughToo : ts.length ≤ more) :
    chainAfter op? operand rounds left ts = chainAfter op? operand more left ts := by
  induction rounds generalizing more left ts with
  | zero =>
    obtain rfl := List.length_eq_zero_iff.mp (Nat.le_zero.mp enough)
    cases more <;> rfl
  | succ rounds ih =>
    cases ts with
    | nil => cases more <;> rfl
    | cons first after =>
      -- there is a token, so the other count is a successor as well
      obtain ⟨more, rfl⟩ := Nat.exists_eq_add_of_le' (Nat.le_trans (Nat.le_add_left ..) enoughToo)
      simp only [chainAfter]
      split
      · next s rest same =>
        cases same
        split
        · next op found =>
          cases read : operand after with
          | error fault => rfl
          | ok result =>
            have shorter := shrinks read
            rw [List.length_cons] at enough enoughToo
            exact ih (by omega) (by omega)
        · rfl
      · rfl

/-- A chain ends where no operator of it follows. -/
theorem chainAfter_stop {op? : Symbol → Option Operator} {operand : Reading} {left : Tree}
    {rest : List Token} (stop : ∀ s, rest.head? = some (.symbol s) → op? s = none)
    (rounds : Nat) : chainAfter op? operand rounds left rest = .ok (left, rest) := by
  cases rounds with
  | zero => rfl
  | succ rounds =>
    unfold chainAfter
    split
    · next s after => rw [stop s rfl]
    · rfl

theorem chain_first {op? : Symbol → Option Operator} {operand : Reading} {t : Tree}
    {ts rest : List Token} (read : operand ts = .ok (t, rest)) :
    chain op? operand ts = chainAfter op? operand rest.length t rest := by
  rw [chain, read]
  rfl

theorem chain_next {op? : Symbol → Option Operator} {operand : Reading} {s : Symbol}
    {op : Operator} {left right : Tree} {ts us rest : List Token}
    (shrinks : ∀ {ts t rest}, operand ts = .ok (t, rest) → rest.length ≤ ts.length)
    (found : op? s = some op)
    (before : chain op? operand ts =
      chainAfter op? operand (us.length + 1) left (.symbol s :: us))
    (read : operand us = .ok (right, rest)) :
    chain op? operand ts = chainAfter op? operand rest.length (.binary op left right) rest := by
  -- one round reads the operator and its right operand
  have step : chainAfter op? operand (us.length + 1) left (.symbol s :: us) =
      chainAfter op? operand us.length (.binary op left right) rest := by
    simp only [chainAfter, found, read]
    rfl
  rw [before, step]
  exact chainAfter_rounds shrinks (shrinks read) (Nat.le_refl _)

/-- What the parser makes of a phrase in front of other tokens.  Expressions and terms are
followed up to the point where the chain looks for the next operator. -/
def Completes (room : Nat) : Phrase → List Token → Prop
  | .expression t, ts => ∀ {rest}, Stops [.opening, .power, .times, .over] rest →
      expression (unaryAt room) (ts ++ rest) =
        chainAfter additive? (term (unaryAt room)) rest.length t rest
  | .term t, ts => ∀ {rest}, Stops [.opening, .power] rest →
      term (unaryAt room) (ts ++ rest) =
        chainAfter multiplicative? (unaryAt room) rest.length t rest
  | .unary t, ts => ∀ {rest}, Stops [.opening, .power] rest →
      unaryAt room (ts ++ rest) = .ok (t, rest)
  | .power t, ts => ∀ {rest}, Stops [.opening, .power] rest →
      power (unaryAt room) (ts ++ rest) = .ok (t, rest)
  | .primary t, ts => ∀ {rest}, Stops [.opening] rest →
      primary (unaryAt room) (ts ++ rest) = .ok (t, rest)
  | .arguments trees, ts => ∀ {rest rounds}, ts.length ≤ rounds →
      argumentsFrom (expression (unaryAt room)) rounds (ts ++ .symbol .closing :: rest) =
        .ok (trees, rest)

section
variable {room : Nat}

theorem Completes.read_expression {t : Tree} {ts rest : List Token}
    (complete : Completes room (.expression t) ts)
    (stop : Stops [.opening, .power, .times, .over, .plus, .minus] rest) :
    expression (unaryAt room) (ts ++ rest) = .ok (t, rest) := by
  rw [complete (stop.mono (by simp))]
  apply chainAfter_stop
  intro s first
  match s with
  | .plus => exact absurd first (stop .plus (by decide))
  | .minus => exact absurd first (stop .minus (by decide))
  | .times | .over | .power | .opening | .closing | .comma => rfl

theorem Completes.read_term {t : Tree} {ts rest : List Token}
    (complete : Completes room (.term t) ts)
    (stop : Stops [.opening, .power, .times, .over] rest) :
    term (unaryAt room) (ts ++ rest) = .ok (t, rest) := by
  rw [complete (stop.mono (by simp))]
  apply chainAfter_stop
  intro s first
  match s with
  | .times => exact absurd first (stop .times (by decide))
  | .over => exact absurd first (stop .over (by decide))
  | .plus | .minus | .power | .opening | .closing | .comma => rfl

theorem completes_sum {s : Symbol} {op : Operator} {left right : Tree} {ts us : List Token}
    (operator : Additive s op) (before : Completes room (.expression left) ts)
    (after : Completes room (.term right) us) :
    Completes room (.expression (.binary op left right)) (ts ++ .symbol s :: us) := by
  intro rest stop
  -- the term in front of a sign stops there
  have outside : s ∉ [.opening, .power, .times, .over] := by cases operator <;> decide
  have reached := before (stops_cons outside (us ++ rest))
  rw [List.append_assoc, List.cons_append]
  exact chain_next (Sound.length_le (sound_chain extends_term .term (sound_unaryAt room)))
    (additive?_eq_some_iff.mpr operator) reached (after.read_term stop)

theorem completes_product {s : Symbol} {op : Operator} {left right : Tree} {ts us : List Token}
    (operator : Multiplicative s op) (before : Completes room (.term left) ts)
    (after : Completes room (.unary right) us) :
    Completes room (.term (.binary op left right)) (ts ++ .symbol s :: us) := by
  intro rest stop
  have outside : s ∉ [.opening, .power] := by cases operator <;> decide
  have reached := before (stops_cons outside (us ++ rest))
  rw [List.append_assoc, List.cons_append]
  exact chain_next (Sound.length_le (sound_unaryAt room)) (multiplicative?_eq_some_iff.mpr operator)
    reached (after stop)

theorem completes_unsigned {t : Tree} {ts : List Token}
    (derivation : Derives room (.power t) ts) (only : Completes room (.power t) ts) :
    Completes (room + 1) (.unary t) ts := by
  intro rest stop
  have read := only stop
  -- a power does not begin with a sign, so no sign is taken off
  obtain ⟨first, others, rfl, begins⟩ := head_of_power derivation
  cases begins <;> exact read

theorem completes_base {t : Tree} {ts : List Token} (only : Completes room (.primary t) ts) :
    Completes room (.power t) ts := by
  intro rest stop
  have read := only (stop.mono (by simp))
  rw [power, read]
  cases rest with
  | nil => rfl
  | cons next rest =>
    cases next with
    | symbol s =>
      cases s with
      | power => exact absurd rfl (stop .power (.tail _ (.head _)))
      | _ => rfl
    | _ => rfl

theorem completes_raised {base exponent : Tree} {ts us : List Token}
    (below : Completes room (.primary base) ts) (above : Completes room (.unary exponent) us) :
    Completes room (.power (.binary .power base exponent)) (ts ++ .symbol .power :: us) := by
  intro rest stop
  have read := below (stops_cons (s := .power) (by decide) (us ++ rest))
  have readAbove := above stop
  rw [List.append_assoc, List.cons_append, power, read]
  show (unaryAt room (us ++ rest) >>= _) = _
  rw [readAbove]
  rfl

theorem completes_name {name : String} : Completes room (.primary (.name name)) [.name name] := by
  intro rest stop
  cases rest with
  | nil => rfl
  | cons next rest =>
    cases next with
    | symbol s =>
      cases s with
      | opening => exact absurd rfl (stop .opening (.head _))
      | _ => rfl
    | _ => rfl

theorem completes_emptyCall {name : String} (plain : Token.points name = 0) :
    Completes room (.primary (.call name []))
      [.name name, .symbol .opening, .symbol .closing] := by
  intro rest stop
  simp only [List.cons_append, List.nil_append, primary, plain, Nat.lt_irrefl, if_false]
  rfl

theorem completes_call {name : String} {args : List Tree} {ts : List Token}
    (plain : Token.points name = 0) (derivation : Derives room (.arguments args) ts)
    (given : Completes room (.arguments args) ts) :
    Completes room (.primary (.call name args))
      (.name name :: .symbol .opening :: (ts ++ [.symbol .closing])) := by
  intro rest stop
  have read : arguments (expression (unaryAt room)) (ts ++ .symbol .closing :: rest) =
      .ok (args, rest) := by
    obtain ⟨first, others, rfl, begins⟩ := head_ne_closing derivation
    rw [List.cons_append, arguments]
    · apply given
      simp
      omega
    · rintro behind ⟨⟩
      exact begins rfl
  simp only [List.cons_append, List.append_assoc, List.nil_append, primary, plain,
    Nat.lt_irrefl, if_false, read]
  rfl

theorem completes_group {t : Tree} {ts : List Token}
    (inner : Completes room (.expression t) ts) :
    Completes room (.primary t) (.symbol .opening :: (ts ++ [.symbol .closing])) := by
  intro rest stop
  have read := inner.read_expression (stops_cons (s := .closing) (by decide) rest)
  simp only [List.cons_append, List.append_assoc, List.nil_append, primary, read]
  rfl

theorem completes_lastArgument {t : Tree} {ts : List Token} (nonempty : ts ≠ [])
    (only : Completes room (.expression t) ts) : Completes room (.arguments [t]) ts := by
  intro rest rounds enough
  have read := only.read_expression (stops_cons (s := .closing) (by decide) rest)
  cases rounds with
  | zero => exact absurd (List.length_eq_zero_iff.mp (Nat.le_zero.mp enough)) nonempty
  | succ rounds =>
    rw [argumentsFrom, read]
    rfl

theorem completes_nextArgument {t : Tree} {others : List Tree} {ts us : List Token}
    (first : Completes room (.expression t) ts) (further : Completes room (.arguments others) us) :
    Completes room (.arguments (t :: others)) (ts ++ .symbol .comma :: us) := by
  intro rest rounds enough
  rw [List.length_append, List.length_cons] at enough
  have read :=
    first.read_expression (stops_cons (s := .comma) (by decide) (us ++ .symbol .closing :: rest))
  cases rounds with
  | zero => omega
  | succ rounds =>
    have readOthers := @further rest rounds (by omega)
    rw [List.append_assoc, List.cons_append, argumentsFrom, read]
    show (argumentsFrom _ rounds _ >>= _) = _
    rw [readOthers]
    rfl

end

theorem completes_of_derives {room : Nat} {phrase : Phrase} {ts : List Token}
    (derivation : Derives room phrase ts) : Completes room phrase ts := by
  induction derivation with
  | expression _ ih =>
    intro rest stop
    exact chain_first (ih.read_term stop)
  | sum operator _ _ ihBefore ihAfter => exact completes_sum operator ihBefore ihAfter
  | term _ ih =>
    intro rest stop
    exact chain_first (ih stop)
  | product operator _ _ ihBefore ihAfter => exact completes_product operator ihBefore ihAfter
  | negative _ ih =>
    intro rest stop
    rw [List.cons_append, unaryAt]
    show (unaryAt _ _ >>= _) = _
    rw [ih stop]
    rfl
  | positive _ ih =>
    intro rest stop
    exact ih stop
  | unsigned only ih => exact completes_unsigned only ih
  | base _ ih => exact completes_base ih
  | raised _ _ ihBelow ihAbove => exact completes_raised ihBelow ihAbove
  | number =>
    intro rest stop
    rfl
  | name => exact completes_name
  | emptyCall plain => exact completes_emptyCall plain
  | call plain given ih => exact completes_call plain given ih
  | group _ ih => exact completes_group ih
  | lastArgument only ih =>
    obtain ⟨first, others, rfl, _⟩ := head_ne_closing only
    exact completes_lastArgument (List.cons_ne_nil first others) ih
  | nextArgument _ _ ihFirst ihFurther => exact completes_nextArgument ihFirst ihFurther

/-! ## Whole formulas -/

theorem expression_of_derives {room : Nat} {t : Tree} {ts : List Token}
    (derivation : Derives room (.expression t) ts) :
    expression (unaryAt room) ts = .ok (t, []) := by
  have complete : Completes room (.expression t) ts := completes_of_derives derivation
  have read := complete.read_expression (stops_nil _)
  rwa [List.append_nil] at read

/-- Tokens are an expression exactly when the parser makes its tree of them. -/
theorem ofTokens_eq_ok_iff {ts : List Token} {t : Tree} :
    Parser.ofTokens ts = .ok t ↔ Derives Settings.maxNesting (.expression t) ts := by
  constructor
  · intro read
    unfold Parser.ofTokens at read
    split at read
    · cases read
    · obtain ⟨⟨tree, rest⟩, readTree, ended⟩ := bind_eq_ok_iff.mp read
      obtain ⟨front, rfl, derivation⟩ := sound_expression (sound_unaryAt _) readTree
      dsimp only at ended
      split at ended
      · cases ended
        rwa [List.append_nil]
      · cases ended
  · intro derivation
    -- a phrase is not empty, so the check for an empty formula passes
    have read := expression_of_derives derivation
    obtain ⟨first, others, rfl, _⟩ := head_ne_closing derivation
    rw [Parser.ofTokens, read]
    · rfl
    · nofun

/-- The grammar is unambiguous, whatever room its derivations take. -/
theorem tree_unique {room otherRoom : Nat} {t other : Tree} {ts : List Token}
    (derivation : Derives room (.expression t) ts)
    (otherDerivation : Derives otherRoom (.expression other) ts) : t = other := by
  -- in room enough for both, the parser reads both trees off the same tokens
  have read := expression_of_derives (derivation.mono (Nat.le_max_left room otherRoom))
  have readOther := expression_of_derives (otherDerivation.mono (Nat.le_max_right room otherRoom))
  rw [read] at readOther
  cases readOther
  rfl

theorem parse_eq_ok_iff {formula : String} {t : Tree} :
    Tree.parse formula = .ok t ↔ ∃ ts, Token.ofText (Text.strip formula) = .ok ts ∧
      Parser.ofTokens ts = .ok t ∧ t.height ≤ Settings.maxHeight := by
  rw [Tree.parse, bind_eq_ok_iff]
  constructor
  · rintro ⟨ts, tokens, read⟩
    obtain ⟨tree, readTree, checked⟩ := bind_eq_ok_iff.mp read
    split at checked
    · cases checked
    · next fits =>
      cases checked
      exact ⟨ts, tokens, readTree, Nat.le_of_not_lt fits⟩
  · rintro ⟨ts, tokens, read, fits⟩
    refine ⟨ts, tokens, bind_eq_ok_iff.mpr ⟨t, read, ?_⟩⟩
    rw [if_neg (Nat.not_lt_of_le fits)]
    rfl

/-- A formula has a tree exactly when its tokens derive the tree within the limits.  The tree
is the only one; every other formula is refused with a syntax fault, since every number token
holds a number and every reading takes its tokens, at least one, off the front of those that
are left. -/
theorem parse_iff_derives (formula : String) :
    (∀ t, Tree.parse formula = .ok t ↔ ∃ ts, Token.ofText (Text.strip formula) = .ok ts ∧
      Derives Settings.maxNesting (.expression t) ts ∧ t.height ≤ Settings.maxHeight) ∧
    (∀ {room otherRoom ts t other}, Derives room (.expression t) ts →
      Derives otherRoom (.expression other) ts → t = other) ∧
    ((∀ t, Tree.parse formula ≠ .ok t) →
      ∃ fault : SyntaxFault, Tree.parse formula = .error fault) ∧
    (∀ {ts text}, Token.ofText (Text.strip formula) = .ok ts → .number text ∈ ts →
      (Decimal.read? text).isSome = true) ∧
    (∀ {room ts t rest}, expression (unaryAt room) ts = .ok (t, rest) →
      ∃ front, front ≠ [] ∧ ts = front ++ rest) := by
  refine ⟨fun t => ?_, tree_unique, fun refused => ?_, isSome_read?_of_number, fun read => ?_⟩
  · rw [parse_eq_ok_iff]
    simp only [ofTokens_eq_ok_iff]
  · cases result : Tree.parse formula with
    | error fault => exact ⟨fault, rfl⟩
    | ok t => exact absurd result (refused t)
  · obtain ⟨front, whole, derivation⟩ := sound_expression (sound_unaryAt _) read
    obtain ⟨first, others, rfl, _⟩ := head_ne_closing derivation
    exact ⟨_, List.cons_ne_nil first others, whole⟩

/-- A sign in front of a power stands outside it, and its exponent may have one of its own. -/
theorem parse_iff_derives_signed_power : ∃ t ts, t.source = "-(2 ^ -x)" ∧
    Token.ofText (Text.strip " -2^-x") = .ok ts ∧
    Derives Settings.maxNesting (.expression t) ts ∧ t.height ≤ Settings.maxHeight := by
  have found : ((Tree.parse " -2^-x").toOption.map Tree.source) = some "-(2 ^ -x)" := by
    decide +kernel
  cases parsed : Tree.parse " -2^-x" with
  | error fault => rw [parsed] at found; cases found
  | ok t =>
    rw [parsed] at found
    obtain ⟨ts, tokens, derivation, fits⟩ := ((parse_iff_derives " -2^-x").1 t).mp parsed
    exact ⟨t, ts, Option.some.inj found, tokens, derivation, fits⟩

end Costing.Formula

import Costing.Proofs.Formula.Nesting
import Costing.Proofs.Formula.Tree

/-! # What the text of a tree is read as

`Tree.source` puts operators into parentheses wherever they are operands, and nothing else.  So a
sign that is raised to a power is written in front of the power, where the grammar reads it as the
sign of the whole power: the text of `(-a) ^ b` is `-a ^ b`, and that of `-(a ^ b)` is `-(a ^ b)`,
which are read as one tree.  `Tree.reread` moves the signs accordingly, and leaves the trees alone
in which no sign is raised (`reread_eq_self_iff`).

For a tree of a formula, `reads_source` gives the tokens of its text and `Rendered` the phrases that
these are, for the tree alone and for the tree as an operand.  By `source_parses_iff` the text has
the tree back exactly if no sign is raised in it and its parentheses are not nested too deeply. -/

namespace Costing.Formula

open Token (Reads)

namespace Tree

/-- The tree is a sign raised to a power. -/
def isRaisedSign : Tree → Bool
  | .binary .power (.negate _) _ => true
  | _ => false

/-- Somewhere in the tree a sign is raised to a power. -/
def raisesSign (t : Tree) : Bool := t.nodes.any isRaisedSign

end Tree

/-! ## The tokens of a tree -/

def Operator.symbol : Operator → Symbol
  | .add => .plus
  | .subtract => .minus
  | .multiply => .times
  | .divide => .over
  | .power => .power

theorem Operator.toList_text (op : Operator) : op.text.toList = [op.symbol.char] := by
  cases op <;> rfl

namespace Tree

/-- The tokens of an operand: operators stand in parentheses. -/
def wrappedTokens : Tree → List Token → List Token
  | .binary _ _ _, ts => .symbol .opening :: (ts ++ [.symbol .closing])
  | _, ts => ts

mutual

/-- The tokens of the text of a tree. -/
def tokens : Tree → List Token
  | .number text => [.number text]
  | .name n => [.name n]
  | .negate operand => .symbol .minus :: operand.wrappedTokens operand.tokens
  | .binary op left right =>
    left.wrappedTokens left.tokens ++ .symbol op.symbol :: right.wrappedTokens right.tokens
  | .call function args =>
    .name function :: .symbol .opening :: (argumentTokens args ++ [.symbol .closing])

def argumentTokens : List Tree → List Token
  | [] => []
  | [arg] => arg.tokens
  | arg :: rest => arg.tokens ++ .symbol .comma :: argumentTokens rest

end

/-- What a tree writes by itself is read as one token, and the function of a call has no point in
its name. -/
def Legible : Tree → Prop
  | .number text => Reads text.toList [.number text]
  | .name n => Reads n.toList [.name n]
  | .call function _ => Reads function.toList [.name function] ∧ Token.points function = 0
  | _ => True

end Tree

/-- The trees of a phrase are legible if its tokens are, each by itself. -/
theorem legible_of_derives {room : Nat} {phrase : Phrase} {ts : List Token}
    (derivation : Derives room phrase ts) (read : ∀ t ∈ ts, Reads t.text.toList [t]) :
    ∀ tree ∈ phrase.trees, ∀ node ∈ tree.nodes, node.Legible := by
  -- a tree is legible if it is so by itself and the trees right under it are
  have root {t : Tree} (here : t.Legible)
      (under : ∀ child ∈ t.children, ∀ node ∈ child.nodes, node.Legible) :
      ∀ tree ∈ [t], ∀ node ∈ tree.nodes, node.Legible := by
    intro tree same node member
    obtain rfl := List.mem_singleton.mp same
    obtain rfl | ⟨child, below, inside⟩ := Tree.mem_nodes.mp member
    · exact here
    · exact under child below node inside
  induction derivation with
  | expression _ ih | term _ ih | unsigned _ ih | base _ ih | lastArgument _ ih => exact ih read
  | sum _ _ _ ihLeft ihRight | product _ _ _ ihLeft ihRight | raised _ _ ihLeft ihRight =>
    obtain ⟨before, after⟩ := forall_sides read
    exact root trivial (List.forall_mem_cons.mpr ⟨ihLeft before _ (.head _), ihRight after⟩)
  | nextArgument _ _ ihFirst ihFurther =>
    obtain ⟨first, further⟩ := forall_sides read
    exact List.forall_mem_cons.mpr ⟨ihFirst first _ (.head _), ihFurther further⟩
  | negative _ ih => exact root trivial (ih fun t member => read t (.tail _ member))
  | positive _ ih => exact ih fun t member => read t (.tail _ member)
  | number | name => exact root (read _ (.head _)) nofun
  | emptyCall plain => exact root ⟨read _ (.head _), plain⟩ nofun
  | call plain _ ih =>
    exact root ⟨read _ (.head _), plain⟩ (ih fun t member => read t (by simp [member]))
  | group _ ih => exact ih fun t member => read t (by simp [member])

/-! ## Reading the text -/

/-- Parentheses are read around an operand where they are written. -/
theorem reads_wrapped {t : Tree} (reads : Reads t.source.toList t.tokens) :
    Reads (t.wrapped t.source).toList (t.wrappedTokens t.tokens) := by
  cases t with
  | binary op left right =>
    rw [Tree.wrapped, Tree.wrappedTokens, String.toList_append, String.toList_append]
    exact .symbol .opening (reads.append (delimits_closing []) (.symbol .closing .nil))
  | _ => exact reads

theorem reads_arguments {args : List Tree}
    (reads : ∀ arg ∈ args, Reads arg.source.toList arg.tokens) :
    Reads (String.intercalate ", " (Tree.sources args)).toList (Tree.argumentTokens args) := by
  induction args with
  | nil => exact .nil
  | cons arg rest ih =>
    have first := reads arg (.head _)
    cases rest with
    | nil => simpa [Tree.sources, Tree.argumentTokens] using first
    | cons next rest =>
      have others := ih fun a member => reads a (.tail _ member)
      have joined := first.append (delimits_comma _) (.symbol .comma (.space others))
      simpa [Tree.sources, Tree.argumentTokens, Symbol.char] using joined

/-- The text of a legible tree has the tokens of the tree.  Wherever two texts meet that could grow
together, a space, a comma or a parenthesis stands between them. -/
theorem reads_source {t : Tree} (legible : ∀ node ∈ t.nodes, node.Legible) :
    Reads t.source.toList t.tokens := by
  induction t using Tree.induct with
  | number | name => exact legible _ (.head _)
  | negate operand ih =>
    have inner := reads_wrapped (ih (Tree.forall_child legible (.head _)))
    rw [Tree.source, Tree.tokens, String.toList_append]
    exact .symbol .minus inner
  | binary op left right ihLeft ihRight =>
    have before := reads_wrapped (ihLeft (Tree.forall_child legible (.head _)))
    have after := reads_wrapped (ihRight (Tree.forall_child legible (.tail _ (.head _))))
    have rest := Reads.space (.symbol op.symbol (.space after))
    simpa [Tree.source, Tree.tokens, op.toList_text] using before.append (delimits_space _) rest
  | call function args ih =>
    have word := (legible (.call function args) (.head _)).1
    have inner := reads_arguments fun arg given => ih arg given (Tree.forall_child legible given)
    have rest := Reads.symbol .opening (inner.append (delimits_closing []) (.symbol .closing .nil))
    simpa [Tree.source, Tree.tokens, Symbol.char] using word.append (delimits_opening _) rest

/-! ## Signs move in front of powers -/

namespace Tree

/-- A tree raised to a power, if there is an exponent. -/
def raisedTo (base : Tree) : Option Tree → Tree
  | none => base
  | some exponent => .binary .power base exponent

mutual

/-- The tree that the text of a tree is read as, when an exponent may follow it. -/
def reread : Tree → Option Tree → Tree
  | .number text, above => raisedTo (.number text) above
  | .name n, above => raisedTo (.name n) above
  | .negate operand, above => .negate (operand.reread above)
  | .binary .power base exponent, above =>
    raisedTo (base.reread (some (exponent.reread none))) above
  | .binary op left right, above =>
    raisedTo (.binary op (left.reread none) (right.reread none)) above
  | .call function args, above => raisedTo (.call function (rereadAll args)) above

def rereadAll : List Tree → List Tree
  | [] => []
  | arg :: rest => arg.reread none :: rereadAll rest

end

theorem rereadAll_eq_map (args : List Tree) : rereadAll args = args.map fun a => a.reread none := by
  induction args with
  | nil => rfl
  | cons arg rest ih => rw [rereadAll, ih, List.map_cons]

end Tree

/-- What stands behind the base of a power, if it is one. -/
inductive Raising : Option Tree → List Token → Prop where
  | none : Raising none []
  | some {room : Nat} {exponent : Tree} {us : List Token}
      (above : Derives room (.unary exponent) us) : Raising (some exponent) (.symbol .power :: us)

/-- The phrases that the tokens of a tree are. -/
structure Rendered (t : Tree) : Prop where
  alone : ∃ room, Derives room (.expression (t.reread none)) t.tokens
  operand : ∀ {above us}, Raising above us →
    ∃ room, Derives room (.unary (t.reread above)) (t.wrappedTokens t.tokens ++ us)

theorem unary_of_primary {room : Nat} {t : Tree} {ts us : List Token} {above : Option Tree}
    (base : Derives room (.primary t) ts) (raising : Raising above us) :
    ∃ room, Derives room (.unary (t.raisedTo above)) (ts ++ us) := by
  cases raising with
  | none => exact ⟨room + 1, by rw [List.append_nil]; exact .unsigned (.base base)⟩
  | @some higher _ _ exponent =>
    exact ⟨max room higher + 1, .unsigned (.raised (base.mono (Nat.le_max_left ..))
      (exponent.mono (Nat.le_max_right ..)))⟩

namespace Rendered

variable {t left right : Tree}

/-- An operand that no exponent follows. -/
theorem unary (rendered : Rendered t) :
    ∃ room, Derives room (.unary (t.reread none)) (t.wrappedTokens t.tokens) := by
  simpa using rendered.operand .none

/-- A tree that is written as a primary needs no parentheses. -/
theorem of_primary {room : Nat} (same : t.wrappedTokens t.tokens = t.tokens)
    (primary : Derives room (.primary (t.reread none)) t.tokens)
    (raised : ∀ above, t.reread above = (t.reread none).raisedTo above) : Rendered t where
  alone := ⟨room + 1, .expression (.term (.unsigned (.base primary)))⟩
  operand raising := by
    rw [same, raised]
    exact unary_of_primary primary raising

/-- An exponent behind a sign is one behind its operand. -/
theorem negate (rendered : Rendered t) : Rendered (.negate t) := by
  have operand : ∀ {above us}, Raising above us →
      ∃ room, Derives room (.unary ((Tree.negate t).reread above))
        ((Tree.negate t).tokens ++ us) := by
    intro above us raising
    obtain ⟨room, inner⟩ := rendered.operand raising
    exact ⟨room + 1, .negative inner⟩
  obtain ⟨room, alone⟩ := operand .none
  rw [List.append_nil] at alone
  exact ⟨⟨room, .expression (.term alone)⟩, operand⟩

/-- The phrase of two operands with an operator between them. -/
theorem expression_of_operands (op : Operator) (before : Rendered left) (after : Rendered right) :
    ∃ room, Derives room (.expression ((Tree.binary op left right).reread none))
      (Tree.binary op left right).tokens := by
  obtain ⟨low, beforeAlone⟩ := before.unary
  obtain ⟨high, afterAlone⟩ := after.unary
  have lower := beforeAlone.mono (Nat.le_max_left low high)
  have upper := afterAlone.mono (Nat.le_max_right low high)
  cases op with
  | add => exact ⟨_, .sum .plus (.expression (.term lower)) (.term upper)⟩
  | subtract => exact ⟨_, .sum .minus (.expression (.term lower)) (.term upper)⟩
  | multiply => exact ⟨_, .expression (.product .times (.term lower) upper)⟩
  | divide => exact ⟨_, .expression (.product .over (.term lower) upper)⟩
  | power =>
    -- the signs of the base end up outside, so the whole is a unary and need not be a power
    obtain ⟨room, whole⟩ := before.operand (.some afterAlone)
    exact ⟨room, .expression (.term whole)⟩

/-- In parentheses, two operands with an operator between them are a primary. -/
theorem binary (op : Operator) (before : Rendered left) (after : Rendered right) :
    Rendered (.binary op left right) := by
  obtain ⟨room, alone⟩ := expression_of_operands op before after
  refine ⟨⟨room, alone⟩, fun {above us} raising => ?_⟩
  have raised : (Tree.binary op left right).reread above =
      ((Tree.binary op left right).reread none).raisedTo above := by cases op <;> rfl
  rw [raised]
  exact unary_of_primary (.group alone) raising

end Rendered

theorem derives_arguments {arg : Tree} {rest : List Tree}
    (each : ∀ a ∈ arg :: rest, ∃ room, Derives room (.expression (a.reread none)) a.tokens) :
    ∃ room, Derives room (.arguments (Tree.rereadAll (arg :: rest)))
      (Tree.argumentTokens (arg :: rest)) := by
  induction rest generalizing arg with
  | nil =>
    obtain ⟨room, only⟩ := each arg (.head _)
    exact ⟨room, .lastArgument only⟩
  | cons next rest ih =>
    obtain ⟨low, first⟩ := each arg (.head _)
    obtain ⟨high, others⟩ := ih fun a member => each a (.tail _ member)
    exact ⟨max low high, .nextArgument (first.mono (Nat.le_max_left ..))
      (others.mono (Nat.le_max_right ..))⟩

theorem rendered (t : Tree) (legible : ∀ node ∈ t.nodes, node.Legible) : Rendered t := by
  induction t using Tree.induct with
  | number text => exact @Rendered.of_primary _ 0 rfl .number fun above => rfl
  | name n => exact @Rendered.of_primary _ 0 rfl .name fun above => rfl
  | negate operand ih => exact (ih (Tree.forall_child legible (.head _))).negate
  | binary op left right ihLeft ihRight =>
    exact .binary op (ihLeft (Tree.forall_child legible (.head _)))
      (ihRight (Tree.forall_child legible (.tail _ (.head _))))
  | call function args ih =>
    have plain := (legible (.call function args) (.head _)).2
    cases args with
    | nil => exact @Rendered.of_primary _ 0 rfl (.emptyCall plain) fun above => rfl
    | cons arg rest =>
      obtain ⟨room, given⟩ := derives_arguments fun a member =>
        (ih a member (Tree.forall_child legible member)).alone
      exact .of_primary rfl (.call plain given) fun above => rfl

namespace Tree

theorem raisesSign_of_mem {node t : Tree} (member : node ∈ t.nodes) (plain : t.raisesSign = false) :
    node.raisesSign = false :=
  List.any_eq_false.mpr fun part inside =>
    List.any_eq_false.mp plain part (nodes_subset member inside)

theorem raisesSign_binary (op : Operator) (left right : Tree) :
    (binary op left right).raisesSign =
      ((binary op left right).isRaisedSign || (left.raisesSign || right.raisesSign)) := by
  rw [raisesSign, nodes, List.any_cons, List.any_append]
  rfl

theorem raisesSign_call (function : String) (args : List Tree) :
    (call function args).raisesSign = args.any raisesSign := by
  show (nodesOf args).any isRaisedSign = _
  induction args with
  | nil => rfl
  | cons arg rest ih => rw [nodesOf, List.any_append, ih, List.any_cons, raisesSign]

theorem reread_binary {op : Operator} {left right : Tree}
    (plain : (binary op left right).isRaisedSign = false) :
    (binary op left right).reread none = binary op (left.reread none) (right.reread none) := by
  cases op with
  | power =>
    -- a base that is no sign stays below its exponent
    cases left with
    | negate operand => cases plain
    | binary inner _ _ => cases inner <;> rfl
    | _ => rfl
  | _ => rfl

/-- A raised sign ends up in front of the power. -/
theorem reread_ne_of_raised {t : Tree} (raised : t.isRaisedSign = true) : t.reread none ≠ t := by
  unfold isRaisedSign at raised
  split at raised
  · rw [reread, reread]
    nofun
  · cases raised

/-- Only a raised sign is moved. -/
theorem reread_eq_self_iff {t : Tree} : t.reread none = t ↔ t.raisesSign = false := by
  induction t using induct with
  | number | name => exact iff_of_true rfl rfl
  | negate operand ih =>
    rw [reread, negate.injEq, ih]
    rfl
  | binary op left right ihLeft ihRight =>
    rw [raisesSign_binary, Bool.or_eq_false_iff, Bool.or_eq_false_iff, ← ihLeft, ← ihRight]
    cases raised : (binary op left right).isRaisedSign with
    | true => simp [reread_ne_of_raised raised]
    | false => simp [reread_binary raised]
  | call function args ih =>
    have each : args.map (fun arg => arg.reread none) = args ↔
        ∀ arg ∈ args, arg.reread none = arg := by
      simpa using List.map_inj_left (l := args) (f := fun arg => arg.reread none) (g := id)
    rw [raisesSign_call, reread, raisedTo, call.injEq, rereadAll_eq_map, each, List.any_eq_false]
    simp only [true_and, Bool.not_eq_true]
    exact forall₂_congr ih

end Tree

/-! ## Formulas -/

/-- The text of a node of a formula has the node back exactly if no sign is raised in it and its
parentheses are not nested too deeply. -/
theorem source_parses_iff {formula : String} {t node : Tree} (parsed : Tree.parse formula = .ok t)
    (member : node ∈ t.nodes) :
    Tree.parse node.source = .ok node ↔
      node.raisesSign = false ∧ Tree.parse node.source ≠ .error .nestedTooDeeply := by
  obtain ⟨ts, tokens, read, fits⟩ := parse_eq_ok_iff.mp parsed
  have reads := Token.reads_of_ofChars tokens
  have legible := legible_of_derives (ofTokens_eq_ok_iff.mp read)
    (fun t member => reads.text_of_mem member) t (.head _)
  have within : ∀ part ∈ node.nodes, part.Legible :=
    fun part inside => legible part (Tree.nodes_subset member inside)
  -- the tokens of the text, and the phrase that they are in some room
  have text : Token.ofText (Text.strip node.source) = .ok node.tokens := by
    rw [Token.ofText, Text.strip, String.toList_ofList, Token.ofChars_eq_ok_iff,
      Token.reads_strip_iff]
    exact reads_source within
  obtain ⟨room, derivation⟩ := (rendered node within).alone
  have short : node.height ≤ Settings.maxHeight := Nat.le_trans (Tree.height_le member) fits
  rw [← Tree.reread_eq_self_iff]
  constructor
  · intro back
    obtain ⟨us, found, readBack, _⟩ := parse_eq_ok_iff.mp back
    rw [text] at found
    cases found
    refine ⟨tree_unique derivation (ofTokens_eq_ok_iff.mp readBack), ?_⟩
    rw [back]
    nofun
  · rintro ⟨same, shallow⟩
    rw [same] at derivation
    obtain readBack | refused := ofTokens_of_derives derivation
    · exact parse_eq_ok_iff.mpr ⟨node.tokens, text, readBack, short⟩
    · refine absurd ?_ shallow
      rw [Tree.parse, text]
      show (Parser.ofTokens node.tokens >>= _) = _
      rw [refused]
      rfl

end Costing.Formula

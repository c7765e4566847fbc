import Costing.Formula.Validation
import Costing.Proofs.FaultWording
import Costing.Proofs.Formula.Extremum
import Costing.Proofs.Formula.Rendering
import Mathlib.Logic.Relation

/-! # The expression at fault

Some causes of faults quote the expression that has no value, by its text.  A fault goes up through
the nodes that wait for their operands, and out of the bodies of the functions that are called, with
its cause unchanged: `Visit.fault_step` follows it back down by one step, and
`Visit.exists_origin` to the node whose own evaluation has come to the cause.  The text that the
cause quotes is the text of that node.

With `source_parses_iff` it follows what a reader gets who takes the text for a formula
(`quoted_source_reads_back`). -/

namespace Costing

/-- The text of the expression that a cause quotes. -/
def Cause.expression? : Cause → Option String
  | .arity f => some f.subject
  | .evaluation (.divisionByZero source) | .evaluation (.invalidPower source)
  | .evaluation (.invalidArgument source _) => some source
  | .unitMismatch f => some f.subject
  | _ => none

/-- The expression that a cause quotes is its subject. -/
theorem Cause.subject_of_expression? {cause : Cause} {text : String}
    (quoted : cause.expression? = some text) : cause.subject = some text := by
  unfold Cause.expression? at quoted
  split at quoted <;> first | exact quoted | cases quoted

namespace Formula

open Machine (Callee callee callee_eq_builtin_iff callee_eq_shared_iff)

/-! ## Names quote no expression -/

theorem expression?_of_toNumber {p : Property} {subject : String} {f : EvaluationFault}
    (failed : p.toNumber subject = .error f) : (Cause.evaluation f).expression? = none := by
  have outcome : f = .propertyBlank subject ∨ f = .propertyIsText subject p.value := by
    unfold Property.toNumber at failed
    -- a text that is no number is refused for numbers, prices and texts alike
    split at failed <;> split at failed
    all_goals try split at failed
    all_goals cases failed
    all_goals simp
  obtain rfl | rfl := outcome <;> rfl

section
variable {s : Scope} {name : String} {cause : Cause}

theorem expression?_of_selected {field : String} {kind : CatalogKind} {key : Option String}
    (failed : s.selected field kind key name = .error cause) : cause.expression? = none := by
  unfold Scope.selected at failed
  split at failed
  · cases failed
    rfl
  · split at failed <;> cases failed
    rfl

theorem expression?_of_numeric {value : Tagged} (failed : s.numeric name value = .error cause) :
    cause.expression? = none := by
  cases value with
  | number x => cases failed
  | selection kind key => exact expression?_of_selected (map_eq_error_iff.mp failed)
  | broken | missing | text =>
    cases failed
    rfl

theorem expression?_of_propertyOf {kind : CatalogKind} {item property : String}
    (failed : s.propertyOf kind item property name = .error cause) : cause.expression? = none := by
  unfold Scope.propertyOf at failed
  split at failed
  · cases failed
  · cases failed
    rfl
  · next f value =>
    cases failed
    unfold Catalog.propertyValue? at value
    split at value
    · exact expression?_of_toNumber (map_eq_error_iff.mp value)
    · cases value

theorem expression?_of_resolve (failed : s.resolve name = .error cause) :
    cause.expression? = none := by
  unfold Scope.resolve at failed
  split at failed
  · exact expression?_of_numeric failed
  · split at failed
    · unfold Scope.resolveProperty at failed
      split at failed
      · cases failed
        rfl
      · obtain unselected | ⟨_, _, lacking⟩ := bind_eq_error_iff.mp failed
        · exact expression?_of_selected unselected
        · exact expression?_of_propertyOf lacking
      · cases failed
        rfl
      · split at failed
        · exact expression?_of_propertyOf failed
        · split at failed <;> cases failed <;> rfl
    · unfold Scope.resolvePlain at failed
      split at failed
      · cases failed
      · split at failed
        · cases failed
        · split at failed <;> cases failed <;> rfl

end

/-! ## Steps of an evaluation -/

/-- An evaluation: a node in a scope, with the room that is left for it and the number of bodies
that may still be opened. -/
structure Visit where
  bodies : Nat
  scope : Scope
  node : Tree
  room : Nat

namespace Visit

def outcome (v : Visit) : Except Abort Float :=
  v.node.evaluate (openBody v.bodies) v.scope v.room

/-- An evaluation comes to another one next: that of an operand or argument, once those before it
have values, or that of the body of a function. -/
inductive Next : Visit → Visit → Prop where
  | operand {bodies : Nat} {s : Scope} {operand : Tree} {room rest : Nat}
      (spent : spend operatorRoom room = .ok rest) :
      Next ⟨bodies, s, .negate operand, room⟩ ⟨bodies, s, operand, rest⟩
  | left {bodies : Nat} {s : Scope} {op : Operator} {left right : Tree} {room rest : Nat}
      (spent : spend operatorRoom room = .ok rest) :
      Next ⟨bodies, s, .binary op left right, room⟩ ⟨bodies, s, left, rest⟩
  | right {bodies : Nat} {s : Scope} {op : Operator} {left right : Tree} {x : Float}
      {room rest : Nat} (spent : spend operatorRoom room = .ok rest)
      (value : left.evaluate (openBody bodies) s rest = .ok x) :
      Next ⟨bodies, s, .binary op left right, room⟩ ⟨bodies, s, right, rest⟩
  | argument {bodies : Nat} {s : Scope} {function : String} {before after : List Tree}
      {arg : Tree} {room rest : Nat}
      (called : EvaluatesArguments bodies s function (before ++ arg :: after).length)
      (spent : spend callRoom room = .ok rest)
      (values : ∀ a ∈ before, ∃ x, a.evaluate (openBody bodies) s rest = .ok x) :
      Next ⟨bodies, s, .call function (before ++ arg :: after), room⟩ ⟨bodies, s, arg, rest⟩
  | body {bodies : Nat} {s : Scope} {function : String} {g : SharedFunction} {args : List Tree}
      {xs : List Float} {t : Tree} {room rest : Nat} (shared : Builtin.ofName? function = none)
      (registered : s.book.functions.get? function = some g)
      (accepted : g.arity.accepts args.length = true) (spent : spend callRoom room = .ok rest)
      (values : Tree.evaluateAll (openBody (bodies + 1)) s args rest = .ok xs)
      (parsed : Tree.parse g.formula = .ok t) :
      Next ⟨bodies + 1, s, .call function args, room⟩
        ⟨bodies, s.forBody (bindArguments g xs), t, rest⟩

/-- The evaluation of a whole formula. -/
def start (s : Scope) (t : Tree) : Visit := ⟨s.bodiesLeft, s, t, Settings.evaluationRoom⟩

/-- The evaluations that an evaluation comes to. -/
abbrev Reaches : Visit → Visit → Prop := Relation.ReflTransGen Next

/-- Operands and arguments lie lower in the tree, and a body leaves fewer bodies to open. -/
theorem Next.descends {v w : Visit} (next : v.Next w) :
    w.bodies < v.bodies ∨ w.bodies = v.bodies ∧ w.node.height < v.node.height := by
  have lower {child t : Tree} (under : child ∈ t.children) : child.height < t.height := by
    rw [Tree.height_eq t]
    exact Nat.lt_succ_of_le (Tree.height_le_heights under)
  cases next with
  | operand => exact .inr ⟨rfl, lower (.head _)⟩
  | left => exact .inr ⟨rfl, lower (.head _)⟩
  | right => exact .inr ⟨rfl, lower (.tail _ (.head _))⟩
  | argument => exact .inr ⟨rfl, lower (by simp [Tree.children])⟩
  | body => exact .inl (Nat.lt_succ_self _)

theorem wellFounded_next : WellFounded fun w v : Visit => v.Next w := by
  have order := (Prod.lex Nat.lt_wfRel Nat.lt_wfRel).wf
  refine Subrelation.wf ?_ (InvImage.wf (fun v : Visit => (v.bodies, v.node.height)) order)
  intro w v next
  obtain fewer | ⟨same, lower⟩ := next.descends
  · exact .left _ _ fewer
  · show Prod.Lex _ _ (w.bodies, _) (v.bodies, _)
    rw [same]
    exact .right _ lower

/-! ## Back to where a fault arose -/

/-- The evaluation itself has come to the cause that quotes its node. -/
def Raises (v : Visit) (cause : Cause) : Prop :=
  v.outcome = .error (.ofCause cause) ∧ cause.expression? = some v.node.source

/-- The fault is that of an evaluation that this one comes to next. -/
def Passes (v : Visit) (cause : Cause) : Prop :=
  ∃ w f, v.Next w ∧ w.outcome = .error (.fault f) ∧ f.cause = cause

end Visit

/-- An abort that has just arisen, and quotes the text if its cause quotes anything. -/
def Abort.Quotes (source : String) (a : Abort) : Prop :=
  ∀ f, a = .fault f → a = .ofCause f.cause ∧ ∀ text, f.cause.expression? = some text → text = source

theorem Abort.quotes_ofCause {cause : Cause} {source : String}
    (own : cause.expression? = some source) : (Abort.ofCause cause).Quotes source := by
  rintro f ⟨⟩
  exact ⟨rfl, fun text quoted => Option.some.inj (quoted.symm.trans own)⟩

theorem quotes_of_callee {s : Scope} {function source : String} {count : Nat} {cause : Cause}
    (uncalled : callee s function count source = .error cause) :
    (Abort.ofCause cause).Quotes source := by
  unfold callee at uncalled
  split at uncalled
  · split at uncalled <;> cases uncalled
    exact Abort.quotes_ofCause rfl
  · split at uncalled
    · split at uncalled <;> cases uncalled
      exact Abort.quotes_ofCause rfl
    · cases uncalled
      rintro f ⟨⟩
      refine ⟨rfl, fun text quoted => ?_⟩
      cases quoted

theorem quotes_of_apply {op : Operator} {x y : Float} {source : String} {a : Abort}
    (failed : op.apply x y source = .error a) : a.Quotes source := by
  cases op with
  | divide | power =>
    simp only [Operator.apply] at failed
    split at failed <;> cases failed
    exact Abort.quotes_ofCause rfl
  | _ => cases failed

theorem quotes_of_callBuiltin {f : Builtin} {xs : List Float} {source : String} {a : Abort}
    (failed : callBuiltin f xs source = .error a) : a.Quotes source := by
  unfold callBuiltin at failed
  split at failed <;> cases failed
  · exact Abort.quotes_ofCause rfl
  · nofun
  · exact Abort.quotes_ofCause rfl

/-- Arguments fail as the first of them does that fails, to which the call comes next. -/
theorem passes_of_evaluateAll {bodies : Nat} {s : Scope} {function : String} {args : List Tree}
    {room rest : Nat} {f : Fault} (called : EvaluatesArguments bodies s function args.length)
    (spent : spend callRoom room = .ok rest)
    (failed : Tree.evaluateAll (openBody bodies) s args rest = .error (.fault f)) :
    (Visit.mk bodies s (.call function args) room).Passes f.cause := by
  obtain ⟨before, arg, after, rfl, values, inside⟩ := evaluateAll_eq_error_iff.mp failed
  exact ⟨_, f, .argument called spent values, inside, rfl⟩

/-- A mark leaves the cause of a fault. -/
theorem fault_of_within {function : String} {a : Abort} {f : Fault}
    (marked : a.within function = .fault f) : ∃ g, a = .fault g ∧ g.cause = f.cause := by
  cases a with
  | fault g =>
    cases marked
    exact ⟨g, rfl, (g.cause_within function).symm⟩
  | loneExtremum => cases marked
  | exhausted => cases marked

theorem fault_of_mark {c : Callee} {a : Abort} {f : Fault} (marked : c.mark a = .fault f) :
    ∃ g, a = .fault g ∧ g.cause = f.cause := by
  cases c with
  | builtin => exact ⟨f, marked, rfl⟩
  | shared => exact fault_of_within marked

/-- The body of a function fails for what its tree fails for, unless it has no tree. -/
theorem passes_of_body {bodies : Nat} {s : Scope} {function source : String} {g : SharedFunction}
    {args : List Tree} {xs : List Float} {room rest : Nat} {evaluateBody : BodyEvaluator}
    {f : Fault} {text : String}
    (called : callee s function args.length source = .ok (.shared g))
    (opened : openBody bodies = some evaluateBody) (spent : spend callRoom room = .ok rest)
    (values : Tree.evaluateAll (openBody bodies) s args rest = .ok xs)
    (failed : evaluateBody s g (bindArguments g xs) rest = .error (.fault f))
    (quoted : f.cause.expression? = some text) :
    (Visit.mk bodies s (.call function args) room).Passes f.cause := by
  obtain ⟨shared, registered, accepted⟩ := callee_eq_shared_iff.mp called
  cases bodies with
  | zero => cases opened
  | succ lower =>
    obtain ⟨fault, _, made⟩ | ⟨t, parsed, inside⟩ := (evaluateBody_eq_error_iff opened).mp failed
    · cases made
      cases quoted
    · exact ⟨_, f, .body shared registered accepted spent values parsed, inside, rfl⟩

namespace Visit

variable {v : Visit} {f : Fault} {text : String}

theorem raises_of_quotes (failed : v.outcome = .error (.fault f))
    (quoted : f.cause.expression? = some text) (quotes : (Abort.fault f).Quotes v.node.source) :
    v.Raises f.cause := by
  obtain ⟨own, same⟩ := quotes f rfl
  exact ⟨own ▸ failed, same text quoted ▸ quoted⟩

theorem fault_step_call {bodies room : Nat} {s : Scope} {function : String} {args : List Tree}
    (failed : (mk bodies s (.call function args) room).outcome = .error (.fault f))
    (quoted : f.cause.expression? = some text) :
    (mk bodies s (.call function args) room).Raises f.cause ∨
      (mk bodies s (.call function args) room).Passes f.cause := by
  have arisen := raises_of_quotes failed quoted
  cases evaluate_call_eq_error_iff.mp failed with
  | uncalled called => exact .inl (arisen (quotes_of_callee called))
  | closed => cases quoted
  | @argument c rest a _ called opens spent inside mark =>
    -- the mark of the call leaves the cause as it was
    obtain ⟨g, rfl, same⟩ := fault_of_mark mark
    rw [← same]
    exact .inr (passes_of_evaluateAll (evaluatesArguments_iff.mpr ⟨c, called, opens⟩) spent inside)
  | builtin called _ _ refused =>
    obtain ⟨-, -, rfl⟩ := callee_eq_builtin_iff.mp called
    exact .inl (arisen (quotes_of_callBuiltin refused))
  | body called opened spent values inside mark =>
    obtain ⟨g, rfl, same⟩ := fault_of_within mark
    rw [← same] at quoted ⊢
    exact .inr (passes_of_body called opened spent values inside quoted)

/-- A fault that quotes an expression has arisen in the evaluation itself, or in one that it comes
to next. -/
theorem fault_step (failed : v.outcome = .error (.fault f))
    (quoted : f.cause.expression? = some text) : v.Raises f.cause ∨ v.Passes f.cause := by
  obtain ⟨bodies, s, node, room⟩ := v
  cases node with
  | number text => cases failed
  | name n =>
    -- no name quotes an expression
    obtain ⟨cause, lacking, made⟩ := mapError_eq_error_iff.mp failed
    cases made
    rw [expression?_of_resolve lacking] at quoted
    cases quoted
  | negate operand =>
    simp only [outcome, Tree.evaluate, bind_eq_error_iff] at failed
    obtain spent | ⟨rest, spent, inside | ⟨_, _, made⟩⟩ := failed
    · cases exhausted_of_spend spent
    · exact .inr ⟨_, f, .operand spent, inside, rfl⟩
    · cases made
  | binary op left right =>
    have arisen := raises_of_quotes failed quoted
    simp only [outcome, Tree.evaluate, bind_eq_error_iff] at failed
    obtain spent | ⟨rest, spent, inside | ⟨x, value, inside | ⟨_, _, applied⟩⟩⟩ := failed
    · cases exhausted_of_spend spent
    · exact .inr ⟨_, f, .left spent, inside, rfl⟩
    · exact .inr ⟨_, f, .right spent value, inside, rfl⟩
    · exact .inl (arisen (quotes_of_apply applied))
  | call function args => exact fault_step_call failed quoted

/-- A fault that quotes an expression has arisen in the evaluation of that expression. -/
theorem exists_origin (failed : v.outcome = .error (.fault f))
    (quoted : f.cause.expression? = some text) :
    ∃ w, v.Reaches w ∧ w.outcome = .error (.ofCause f.cause) ∧ text = w.node.source := by
  induction v using wellFounded_next.induction generalizing f with
  | h v ih =>
    obtain ⟨own, source⟩ | ⟨w, g, next, failedNext, same⟩ := fault_step failed quoted
    · exact ⟨v, .refl, own, Option.some.inj (quoted.symm.trans source)⟩
    · rw [← same] at quoted
      obtain ⟨origin, reaches, own, source⟩ := ih w next failedNext quoted
      exact ⟨origin, .head next reaches, same ▸ own, source⟩

/-- Where an evaluation comes to next stands in the same tree or in the body of a function. -/
theorem node_of_next {w : Visit} (next : v.Next w) : w.scope.book = v.scope.book ∧
    (w.node ∈ v.node.nodes ∨ ∃ name g, v.scope.book.functions.get? name = some g ∧
      Tree.parse g.formula = .ok w.node) := by
  have under {child t : Tree} (below : child ∈ t.children) : child ∈ t.nodes :=
    Tree.mem_nodes_of_child below child.self_mem_nodes
  cases next with
  | operand => exact ⟨rfl, .inl (under (.head _))⟩
  | left => exact ⟨rfl, .inl (under (.head _))⟩
  | right => exact ⟨rfl, .inl (under (.tail _ (.head _)))⟩
  | argument => exact ⟨rfl, .inl (under (by simp [Tree.children]))⟩
  | body _ registered _ _ _ parsed => exact ⟨rfl, .inr ⟨_, _, registered, parsed⟩⟩

theorem node_of_reaches {w : Visit} (reaches : v.Reaches w) : w.scope.book = v.scope.book ∧
    (w.node ∈ v.node.nodes ∨ ∃ name g t, v.scope.book.functions.get? name = some g ∧
      Tree.parse g.formula = .ok t ∧ w.node ∈ t.nodes) := by
  induction reaches with
  | refl => exact ⟨rfl, .inl v.node.self_mem_nodes⟩
  | tail _ next ih =>
    obtain ⟨book, place⟩ := ih
    obtain ⟨sameBook, inside | ⟨name, g, registered, parsed⟩⟩ := node_of_next next
    · refine ⟨sameBook.trans book, ?_⟩
      obtain within | ⟨name, g, t, registered, parsed, within⟩ := place
      · exact .inl (Tree.nodes_subset within inside)
      · exact .inr ⟨name, g, t, registered, parsed, Tree.nodes_subset within inside⟩
    · rw [book] at registered
      exact ⟨sameBook.trans book, .inr ⟨name, g, _, registered, parsed, Tree.self_mem_nodes _⟩⟩

end Visit

/-! ## Checks of a formula -/

section
variable {v : Vocabulary} {t : Tree}

theorem expression?_of_checkName {name : String} {cause : Cause}
    (refused : v.checkName name = .error cause) : cause.expression? = none := by
  unfold Vocabulary.checkName at refused
  split at refused
  · unfold Vocabulary.checkPlain at refused
    split at refused
    · cases refused
    · split at refused
      · cases refused
      · split at refused <;> cases refused <;> rfl
  · replace refused := map_eq_error_iff.mp refused
    unfold Vocabulary.checkDotted at refused
    split at refused
    · cases refused
    · split at refused
      · cases refused
        rfl
      · split at refused
        · split at refused
          · cases refused
            rfl
          · split at refused <;> cases refused
            rfl
        · split at refused
          · split at refused <;> cases refused
            rfl
          · cases refused
            rfl

/-- A node that is refused for an expression is that expression. -/
theorem source_of_checkNode {cause : Cause} {text : String}
    (refused : v.checkNode t = .error cause) (quoted : cause.expression? = some text) :
    text = t.source := by
  cases t with
  | name n =>
    rw [expression?_of_checkName refused] at quoted
    cases quoted
  | call function args =>
    replace refused := map_eq_error_iff.mp refused
    unfold Vocabulary.checkCall at refused
    split at refused
    · split at refused <;> cases refused
      cases quoted
      rfl
    · split at refused
      · split at refused <;> cases refused
        cases quoted
        rfl
      · cases refused
        cases quoted
  | _ => cases refused

theorem exists_checkNode {cause : Cause} (refused : v.checkTree t = .error cause) :
    ∃ node ∈ t.nodes, v.checkNode node = .error cause :=
  exists_error_of_mapM (map_eq_error_iff.mp refused)

theorem subject_mismatch (op : Operator) (a b : String) (left right : Tree) :
    (mismatch op a b left right).subject = (Tree.binary op left right).source := by
  cases op with
  | divide =>
    simp only [mismatch]
    split <;> rfl
  | _ => rfl

/-- Arguments are refused for one of them. -/
theorem exists_category {args : List Tree} {m : UnitMismatch}
    (refused : v.checkCategories args = .error m) : ∃ arg ∈ args, v.category arg = .error m := by
  induction args with
  | nil => cases refused
  | cons arg rest ih =>
    rw [Vocabulary.checkCategories, bind_eq_error_iff] at refused
    obtain first | ⟨_, _, others⟩ := refused
    · exact ⟨arg, .head _, first⟩
    · obtain ⟨other, member, found⟩ := ih others
      exact ⟨other, .tail _ member, found⟩

/-- A mismatch of units lies in the node that it quotes. -/
theorem exists_mismatch {m : UnitMismatch} (refused : v.category t = .error m) :
    ∃ node ∈ t.nodes, v.category node = .error m ∧ m.subject = node.source := by
  induction t using Tree.induct_children with
  | step t ih =>
    -- it lies in the tree itself or in one right under it
    have inside (below : ∃ child ∈ t.children, v.category child = .error m) :
        ∃ node ∈ t.nodes, v.category node = .error m ∧ m.subject = node.source := by
      obtain ⟨child, under, failed⟩ := below
      obtain ⟨node, member, found⟩ := ih child under failed
      exact ⟨node, Tree.mem_nodes_of_child under member, found⟩
    have unfolded := refused
    cases t with
    | number | name => cases refused
    | negate operand => exact inside ⟨operand, .head _, refused⟩
    | binary op left right =>
      simp only [Vocabulary.category, bind_eq_error_iff] at unfolded
      obtain before | ⟨a, _, after | ⟨b, _, mismatched⟩⟩ := unfolded
      · exact inside ⟨left, .head _, before⟩
      · exact inside ⟨right, .tail _ (.head _), after⟩
      · split at mismatched <;> cases mismatched
        exact ⟨_, Tree.self_mem_nodes _, refused, subject_mismatch ..⟩
    | call function args =>
      simp only [Vocabulary.category, bind_eq_error_iff] at unfolded
      obtain found | ⟨_, _, made⟩ := unfolded
      · exact inside (exists_category found)
      · cases made

end

/-! ## Formulas -/

theorem outcome_of_fault {s : Scope} {formula : String} {t : Tree} {fault : Fault} {text : String}
    (parsed : Tree.parse formula = .ok t) (failed : evaluate s formula = .fault fault)
    (quoted : fault.cause.expression? = some text) :
    (Visit.start s t).outcome = .error (.fault fault) := by
  show t.evaluate (openBody s.bodiesLeft) s Settings.evaluationRoom = _
  simp only [evaluate, parsed] at failed
  split at failed
  · split at failed <;> cases failed
    cases quoted
  · next aborted =>
    cases failed
    exact aborted
  · cases failed
  · cases failed
    cases quoted

theorem origin_of_check {v : Vocabulary} {formula : String} {t : Tree} {cause : Cause}
    {text : String} (parsed : Tree.parse formula = .ok t) (refused : v.check formula = .error cause)
    (quoted : cause.expression? = some text) :
    ∃ node ∈ t.nodes, text = node.source ∧ (v.checkNode node = .error cause ∨
      ∃ m, v.category node = .error m ∧ cause = .unitMismatch m) := by
  rw [Vocabulary.check, parsed] at refused
  change (v.checkTree t >>= _) = _ at refused
  obtain reference | ⟨_, _, units⟩ := bind_eq_error_iff.mp refused
  · obtain ⟨node, member, found⟩ := exists_checkNode reference
    exact ⟨node, member, source_of_checkNode found quoted, .inl found⟩
  · obtain mismatched | ⟨_, _, made⟩ := bind_eq_error_iff.mp units
    · obtain ⟨m, found, rfl⟩ := mapError_eq_error_iff.mp mismatched
      obtain ⟨node, member, own, source⟩ := exists_mismatch found
      exact ⟨node, member, (Option.some.inj quoted).symm.trans source, .inr ⟨m, own, rfl⟩⟩
    · cases made

/-- Within the limit on nesting, the text of an expression in a formula is read back as the
expression exactly if no sign is raised to a power in it.  The expression that a fault of the
evaluation quotes as its subject is the one whose evaluation has come to the cause, in the formula
or in the body of a function; and the expression that a check quotes is the node of the formula that
it refuses. -/
theorem source_reads_back {formula : String} {t : Tree} (parsed : Tree.parse formula = .ok t) :
    (∀ node ∈ t.nodes, Tree.parse node.source = .ok node ↔
      node.raisesSign = false ∧ Tree.parse node.source ≠ .error .nestedTooDeeply) ∧
    (∀ s fault text, evaluate s formula = .fault fault →
      fault.cause.expression? = some text → fault.subject = some text ∧
        ∃ w, (Visit.start s t).Reaches w ∧ w.outcome = .error (.ofCause fault.cause) ∧
          text = w.node.source ∧ (Tree.parse text = .ok w.node ↔
            w.node.raisesSign = false ∧ Tree.parse text ≠ .error .nestedTooDeeply)) ∧
    (∀ (v : Vocabulary) cause text, v.check formula = .error cause →
      cause.expression? = some text → cause.subject = some text ∧
        ∃ node ∈ t.nodes, text = node.source ∧ (v.checkNode node = .error cause ∨
          ∃ m, v.category node = .error m ∧ cause = .unitMismatch m)) := by
  refine ⟨fun node member => source_parses_iff parsed member, ?_, ?_⟩
  · intro s fault text failed quoted
    refine ⟨Cause.subject_of_expression? quoted, ?_⟩
    obtain ⟨w, reaches, own, rfl⟩ :=
      Visit.exists_origin (outcome_of_fault parsed failed quoted) quoted
    refine ⟨w, reaches, own, rfl, ?_⟩
    obtain ⟨_, inside | ⟨name, g, body, _, parsedBody, inside⟩⟩ := Visit.node_of_reaches reaches
    · exact source_parses_iff parsed inside
    · exact source_parses_iff parsedBody inside
  · intro v cause text refused quoted
    refine ⟨Cause.subject_of_expression? quoted, ?_⟩
    exact origin_of_check parsed refused quoted

/-- A call with a wrong number of arguments is quoted by a text that is read back as the call. -/
theorem source_reads_back_call :
    ∃ (t : Tree) (fault : Fault) (w : Visit), Tree.parse "2 * sqrt(-(a+b), 3)" = .ok t ∧
      evaluate ⟨.ofLists [] [] [], .ofList [], 0⟩ "2 * sqrt(-(a+b), 3)" = .fault fault ∧
      fault.subject = some "sqrt(-(a + b), 3)" ∧ w.outcome = .error (.ofCause fault.cause) ∧
      Tree.parse "sqrt(-(a + b), 3)" = .ok w.node := by
  have checked : ((Tree.parse "2 * sqrt(-(a+b), 3)").map fun t => !t.raisesSign).toOption =
      some true := by decide +kernel
  have run : (match evaluate ⟨.ofLists [] [] [], .ofList [], 0⟩ "2 * sqrt(-(a+b), 3)" with
      | .fault fault => fault.cause.expression? == some "sqrt(-(a + b), 3)"
      | _ => false) = true := by decide +kernel
  have shallow : ((Tree.parse "sqrt(-(a + b), 3)").map fun _ => true).toOption = some true := by
    decide +kernel
  obtain ⟨t, parsed, unraised⟩ := exists_ok_of_check checked
  have plain : t.raisesSign = false := by simpa using unraised
  split at run
  · next fault failed =>
    have quoted := beq_iff_eq.mp run
    obtain ⟨subject, w, reaches, own, source, back⟩ :=
      (source_reads_back parsed).2.1 _ fault _ failed quoted
    refine ⟨t, fault, w, parsed, failed, subject, own, back.mpr ⟨?_, ?_⟩⟩
    · -- no functions are registered, so the node stands in the formula itself
      obtain ⟨_, inside | ⟨_, _, _, registered, _⟩⟩ := Visit.node_of_reaches reaches
      · exact Tree.raisesSign_of_mem inside plain
      · cases registered
    · obtain ⟨u, read, _⟩ := exists_ok_of_check shallow
      rw [read]
      nofun
  · cases run

/-- The sign of the base moves in front of the power, where it is read outside. -/
theorem raised_sign_is_not_read_back : ∃ t other, Tree.parse "(-2) ^ 2" = .ok t ∧
    Tree.parse t.source = .ok other ∧ other ≠ t := by
  have written : ((Tree.parse "(-2) ^ 2").map fun t => t.source == "-2 ^ 2").toOption =
      some true := by decide +kernel
  have read : ((Tree.parse "-2 ^ 2").map fun t => t.source == "-(2 ^ 2)").toOption =
      some true := by decide +kernel
  obtain ⟨t, parsed, source⟩ := exists_ok_of_check written
  obtain ⟨other, parsedOther, sourceOther⟩ := exists_ok_of_check read
  rw [beq_iff_eq] at source sourceOther
  refine ⟨t, other, parsed, source ▸ parsedOther, ?_⟩
  rintro rfl
  rw [source] at sourceOther
  exact absurd sourceOther (by decide)

end Formula

end Costing

import Costing.Proofs.Formula.Acceptance
import Costing.Proofs.Formula.Tree
import Mathlib.Logic.Relation

/-! # Units do not depend on the order of operands

The operands of a sum or of a product may change places, anywhere in a tree and any number of
times (`Tree.Reordered`).  The tree is accepted in one order exactly if it is in the other.

The algebra of categories itself is not commutative: of two plain numbers, the sum and the product
have the category of the second, so percentages plus pieces are pieces, and pieces plus
percentages are percentages.  `Units.Measure` forgets which of the two plain categories it is.
What an operation measures then follows from what its operands measure
(`Operator.category?_map_of`), symmetrically for sums and products (`Operator.measure?_comm`).
This needs that no category is the empty text, which an operation takes for no category and a
name hands on as it is. -/

namespace Costing

namespace Units

/-- The two categories of plain numbers. -/
def IsPlain (category : Option String) : Prop :=
  category = some "count" ∨ category = some "percentage"

/-- What a category measures: the categories of plain numbers are not told apart. -/
inductive Measure where
  | nothing
  | plain
  | dimension (name : String)

namespace Measure

def of : Option String → Measure
  | none => .nothing
  | some name => if isUnitless name then .plain else .dimension name

def sum? : Measure → Measure → Option Measure
  | .nothing, b => some b
  | a, .nothing => some a
  | .plain, b => some b
  | a, .plain => some a
  | .dimension a, .dimension b => if a = b then some (.dimension a) else none

def product : Measure → Measure → Measure
  | .nothing, b => b
  | a, .nothing => a
  | .plain, b => b
  | a, .plain => a
  | .dimension a, .dimension b => of (some (multiply a b))

def quotient? : Measure → Measure → Option Measure
  | a, .nothing => some a
  | .nothing, _ => some .nothing
  | a, .plain => some a
  | .plain, .dimension _ => none
  | .dimension a, .dimension b => if a = b then some .plain else none

theorem eq_or_plain_of_of_eq {a b : Option String} (same : of a = of b) :
    a = b ∨ IsPlain a ∧ IsPlain b := by
  cases a <;> cases b <;> simp [of, IsPlain, isUnitless] at same ⊢ <;> grind

theorem sum?_comm (a b : Measure) : a.sum? b = b.sum? a := by
  cases a <;> cases b <;> simp [sum?]
  grind

theorem product_comm (a b : Measure) : a.product b = b.product a := by
  cases a <;> cases b <;> simp [product]
  case dimension.dimension a b =>
    by_cases left : isUnitless a = true <;> by_cases right : isUnitless b = true
    all_goals simp only [multiply, left, right]
    all_goals grind [of]

end Measure

theorem multiply_of_plain_left {a : String} (plain : isUnitless a = true) (b : String) :
    multiply a b = b := by
  simp only [isUnitless, Bool.or_eq_true, beq_iff_eq] at plain
  rcases plain with rfl | rfl <;> simp [multiply, isUnitless]

theorem multiply_of_plain_right {a b : String} (other : isUnitless a = false)
    (plain : isUnitless b = true) : multiply a b = a := by
  simp only [isUnitless, Bool.or_eq_true, beq_iff_eq] at plain
  rcases plain with rfl | rfl <;> simp [multiply, isUnitless] at other ⊢ <;> simp [other]

theorem of_multiply (a b : String) :
    Measure.of (some (multiply a b)) = (Measure.of (some a)).product (.of (some b)) := by
  by_cases left : isUnitless a = true
  · rw [multiply_of_plain_left left]
    by_cases right : isUnitless b = true <;> simp [Measure.of, Measure.product, left, right]
  · by_cases right : isUnitless b = true
    · rw [multiply_of_plain_right (by simpa using left) right]
      simp [Measure.of, Measure.product, left, right]
    · simp [Measure.of, Measure.product, left, right]

theorem of_divide? (a b : String) :
    (divide? a b).map (fun c => Measure.of (some c)) =
      (Measure.of (some a)).quotient? (.of (some b)) := by
  have count : isUnitless "count" = true := rfl
  unfold divide?
  by_cases same : a = b
  · subst same
    by_cases plain : isUnitless a = true <;> simp [Measure.of, Measure.quotient?, plain, count]
  · by_cases left : isUnitless a = true <;> by_cases right : isUnitless b = true <;>
      simp [Measure.of, Measure.quotient?, left, right, same]

theorem stated_of_ne {category : Option String} (named : category ≠ some "") :
    stated category = category := by
  cases category with
  | none => rfl
  | some name => simpa [stated] using named

end Units

namespace Formula

open Costing.Units

/-! ## Operators -/

namespace Operator

/-- The operators whose operands may change places. -/
def Commutes (op : Operator) : Prop := op = .add ∨ op = .multiply

/-- What an operation measures, if its operands go together. -/
def measure? (op : Operator) (left right : Measure) : Option Measure :=
  match op with
  | .add | .subtract => left.sum? right
  | .multiply => some (left.product right)
  | .divide => left.quotient? right
  | .power => some .nothing

theorem measure?_comm {op : Operator} (commutes : op.Commutes) (a b : Measure) :
    op.measure? a b = op.measure? b a := by
  rcases commutes with rfl | rfl
  · exact Measure.sum?_comm a b
  · exact congrArg some (Measure.product_comm a b)

theorem category?_map_of (op : Operator) {a b : Option String} (left : a ≠ some "")
    (right : b ≠ some "") :
    (op.category? a b).map Measure.of = op.measure? (.of a) (.of b) := by
  simp only [category?, stated_of_ne left, stated_of_ne right]
  cases a with
  | none =>
    cases b with
    | none => cases op <;> rfl
    | some y =>
      by_cases plain : isUnitless y = true <;> cases op <;>
        simp [Measure.of, measure?, Measure.sum?, Measure.product, Measure.quotient?, plain]
  | some x =>
    cases b with
    | none =>
      by_cases plain : isUnitless x = true <;> cases op <;>
        simp [Measure.of, measure?, Measure.sum?, Measure.product, Measure.quotient?, plain]
    | some y =>
      cases op with
      | multiply => simp [measure?, of_multiply]
      | divide => simp [measure?, ← of_divide?, Function.comp_def]
      | power => rfl
      | add | subtract =>
        by_cases left : isUnitless x = true <;> by_cases right : isUnitless y = true <;>
          simp [Measure.of, measure?, Measure.sum?, left, right]

theorem category?_ne_empty {op : Operator} {a b c : Option String} (left : a ≠ some "")
    (right : b ≠ some "") (found : op.category? a b = some c) : c ≠ some "" := by
  simp only [category?, stated_of_ne left, stated_of_ne right] at found
  cases a <;> cases b <;> cases op <;> simp [Units.multiply, divide?] at found left right <;> grind

end Operator

/-! ## Trees in another order -/

/-- One sum or product somewhere in a tree has its operands change places. -/
inductive Tree.Swaps : Tree → Tree → Prop where
  | here {op : Operator} (commutes : op.Commutes) (left right : Tree) :
      Swaps (.binary op left right) (.binary op right left)
  | operand {t u : Tree} (inside : Swaps t u) : Swaps (.negate t) (.negate u)
  | left (op : Operator) {t u : Tree} (right : Tree) (inside : Swaps t u) :
      Swaps (.binary op t right) (.binary op u right)
  | right (op : Operator) (left : Tree) {t u : Tree} (inside : Swaps t u) :
      Swaps (.binary op left t) (.binary op left u)
  | argument (function : String) (before after : List Tree) {t u : Tree} (inside : Swaps t u) :
      Swaps (.call function (before ++ t :: after)) (.call function (before ++ u :: after))

/-- Trees that differ only in the order of the operands of sums and products. -/
abbrev Tree.Reordered : Tree → Tree → Prop := Relation.ReflTransGen Tree.Swaps

namespace Vocabulary

/-- No category that a vocabulary declares is the empty text. -/
structure NamesUnits (v : Vocabulary) : Prop where
  output : ∀ name o, v.outputs.get? name = some o → o.unitCategory ≠ some ""
  field : ∀ name f, v.fields.get? name = some f → f.unitCategory ≠ some ""
  property : ∀ kind key item name p, v.book.catalog.get? kind key = some item →
    item.property? name = some p → p.unitCategory ≠ some ""

/-- The check of references lets a tree through, and the tree has a category. -/
def AcceptsAs (v : Vocabulary) (t : Tree) (category : Option String) : Prop :=
  (∃ warnings, v.checkTree t = .ok warnings) ∧ v.category t = .ok category

/-! ### References -/

/-- A node that means something in the vocabulary. -/
def Knows (v : Vocabulary) (node : Tree) : Prop := ∃ warning, v.checkNode node = .ok warning

theorem knows_negate (v : Vocabulary) (operand : Tree) : v.Knows (.negate operand) := ⟨none, rfl⟩

theorem knows_binary (v : Vocabulary) (op : Operator) (left right : Tree) :
    v.Knows (.binary op left right) := ⟨none, rfl⟩

/-- What a call means does not depend on its arguments but for their number. -/
theorem knows_call_congr {v : Vocabulary} {function : String} {args others : List Tree}
    (sameCount : args.length = others.length) :
    v.Knows (.call function args) ↔ v.Knows (.call function others) := by
  simp only [Knows, checkNode, map_eq_ok_iff, checkCall, sameCount]
  cases Builtin.ofName? function with
  | some f => by_cases accepted : f.arity.accepts others.length = true <;> simp [accepted]
  | none =>
    cases v.book.functions.get? function with
    | some f => by_cases accepted : f.arity.accepts others.length = true <;> simp [accepted]
    | none => simp

/-- A vocabulary knows all nodes of a tree. -/
def KnowsAll (v : Vocabulary) (t : Tree) : Prop := ∀ node ∈ t.nodes, v.Knows node

theorem knowsAll_iff {v : Vocabulary} {t : Tree} :
    v.KnowsAll t ↔ v.Knows t ∧ ∀ child ∈ t.children, v.KnowsAll child := by
  unfold KnowsAll
  rw [Tree.nodes_eq, List.forall_mem_cons]
  simp only [Tree.mem_nodesOf]
  grind

theorem checkTree_eq_ok_iff {v : Vocabulary} {t : Tree} :
    (∃ warnings, v.checkTree t = .ok warnings) ↔ v.KnowsAll t := by
  constructor
  · rintro ⟨warnings, checked⟩
    exact checked_of_checkTree checked
  · intro each
    obtain ⟨results, handled⟩ := exists_mapM each
    exact ⟨_, map_eq_ok_iff.mpr ⟨results, handled, rfl⟩⟩

/-- The order of operands is nothing to the check of references, which looks at the operands of
an operation and at the arguments of a call each for itself. -/
theorem knowsAll_of_swaps {v : Vocabulary} {t u : Tree} (swapped : t.Swaps u) :
    v.KnowsAll t ↔ v.KnowsAll u := by
  induction swapped with
  | here commutes left right =>
    simp [knowsAll_iff (t := .binary ..), knows_binary, Tree.children, and_comm]
  | operand inside ih => simp [knowsAll_iff (t := .negate _), knows_negate, Tree.children, ih]
  | left op right inside ih =>
    simp [knowsAll_iff (t := .binary ..), knows_binary, Tree.children, ih]
  | right op left inside ih =>
    simp [knowsAll_iff (t := .binary ..), knows_binary, Tree.children, ih]
  | @argument function before after t u inside ih =>
    have known : v.Knows (.call function (before ++ t :: after)) ↔
        v.Knows (.call function (before ++ u :: after)) := knows_call_congr (by simp)
    simp only [knowsAll_iff (t := .call ..), known, Tree.children, List.forall_mem_append,
      List.forall_mem_cons, ih]

/-! ### Categories -/

theorem nameCategory_ne_empty {v : Vocabulary} (named : v.NamesUnits) (name : String) :
    v.nameCategory name ≠ some "" := by
  unfold nameCategory
  split
  · next o output => exact named.output name o output
  split
  · next f field =>
    split
    · exact named.field name f field
    · simp
  split
  · simp
  · next base property written =>
    split
    -- of the items that a field may select, the first category that is stated counts
    · intro found
      obtain ⟨item, -, stated⟩ := List.exists_of_findSome?_eq_some found
      simp [Option.filter_eq_some_iff] at stated
    · intro found
      obtain ⟨⟨kind, item⟩, listed, found⟩ := Option.bind_eq_some_iff.mp found
      obtain ⟨p, present, empty⟩ := Option.bind_eq_some_iff.mp found
      exact named.property kind base item property p (Catalog.get?_of_find? listed) present empty

theorem category_ne_empty {v : Vocabulary} (named : v.NamesUnits) (t : Tree) :
    ∀ c, v.category t = .ok c → c ≠ some "" := by
  induction t using Tree.induct with
  | number text => rintro c ⟨⟩ ⟨⟩
  | name n =>
    rintro c ⟨⟩
    exact nameCategory_ne_empty named n
  | negate operand ih => exact ih
  | binary op left right ihLeft ihRight =>
    intro c found
    simp only [category, bind_eq_ok_iff] at found
    obtain ⟨a, hleft, b, hright, joined⟩ := found
    cases together : op.category? a b with
    | none => simp only [together] at joined; cases joined
    | some c' =>
      simp only [together] at joined
      cases joined
      exact Operator.category?_ne_empty (ihLeft a hleft) (ihRight b hright) together
  | call function args ih =>
    intro c found
    simp only [category, bind_eq_ok_iff] at found
    obtain ⟨_, _, made⟩ := found
    cases made
    simp

/-- What a tree measures, if there is no mismatch in it. -/
def measure? (v : Vocabulary) (t : Tree) : Option Measure := (v.category t).toOption.map .of

theorem measure?_binary {v : Vocabulary} (named : v.NamesUnits) (op : Operator)
    (left right : Tree) :
    v.measure? (.binary op left right) =
      (v.measure? left).bind fun a => (v.measure? right).bind (op.measure? a) := by
  simp only [measure?, category, toOption_bind]
  cases first : v.category left with
  | error e => rfl
  | ok a =>
    cases second : v.category right with
    | error e => rfl
    | ok b =>
      have joined := op.category?_map_of (category_ne_empty named left a first)
        (category_ne_empty named right b second)
      simp only [Except.toOption, Option.bind_some, Option.map_some, ← joined]
      cases op.category? a b <;> rfl

theorem measure?_negate (v : Vocabulary) (operand : Tree) :
    v.measure? (.negate operand) = v.measure? operand := rfl

theorem checkCategories_eq_ok_iff {v : Vocabulary} {args : List Tree} :
    v.checkCategories args = .ok () ↔ ∀ arg ∈ args, (v.measure? arg).isSome = true := by
  induction args with
  | nil => simp [checkCategories]
  | cons arg rest ih =>
    rw [checkCategories, bind_eq_ok_iff, List.forall_mem_cons, ← ih]
    cases found : v.category arg <;> simp [measure?, found, Except.toOption]

/-- A call measures nothing, whatever its arguments measure. -/
theorem measure?_call (v : Vocabulary) (function : String) (args : List Tree) :
    v.measure? (.call function args) =
      if ∀ arg ∈ args, (v.measure? arg).isSome = true then some .nothing else none := by
  rw [measure?, category, toOption_bind]
  cases checked : v.checkCategories args with
  | ok u => rw [if_pos (checkCategories_eq_ok_iff.mp checked)]; rfl
  | error e => rw [if_neg (by simp [← checkCategories_eq_ok_iff, checked])]; rfl

theorem measure?_of_swaps {v : Vocabulary} (named : v.NamesUnits) {t u : Tree}
    (swapped : t.Swaps u) : v.measure? t = v.measure? u := by
  induction swapped with
  | @here op commutes left right =>
    rw [measure?_binary named, measure?_binary named]
    cases v.measure? left <;> cases v.measure? right <;> simp [Operator.measure?_comm commutes]
  | operand inside ih => rw [measure?_negate, measure?_negate, ih]
  | left op right inside ih => rw [measure?_binary named, measure?_binary named, ih]
  | right op left inside ih => rw [measure?_binary named, measure?_binary named, ih]
  | argument function before after inside ih =>
    simp only [measure?_call, List.forall_mem_append, List.forall_mem_cons, ih]

/-! ### Acceptance -/

theorem exists_acceptsAs_iff {v : Vocabulary} {t : Tree} :
    (∃ c, v.AcceptsAs t c) ↔ v.KnowsAll t ∧ (v.measure? t).isSome = true := by
  simp only [AcceptsAs, checkTree_eq_ok_iff]
  cases found : v.category t <;> simp [measure?, found, Except.toOption]

/-- The formulas that are accepted are those whose trees are. -/
theorem isAccepted_iff {v : Vocabulary} {formula : String} :
    (v.validate formula).isAccepted = true ↔
      ∃ t, Tree.parse formula = .ok t ∧ ∃ c, v.AcceptsAs t c := by
  have checked : (v.validate formula).isAccepted = true ↔ ∃ w, v.check formula = .ok w := by
    cases verdict : v.check formula <;>
      simp [validate, verdict, Verdict.isAccepted, refusal]
  rw [checked]
  simp only [check, bind_eq_ok_iff, mapError_eq_ok_iff, AcceptsAs]
  constructor
  · rintro ⟨_, t, parsed, warnings, known, c, measured, _⟩
    exact ⟨t, parsed, c, ⟨warnings, known⟩, measured⟩
  · rintro ⟨t, parsed, c, ⟨warnings, known⟩, measured⟩
    exact ⟨warnings, t, parsed, warnings, known, c, measured, rfl⟩

theorem knowsAll_of_reordered {v : Vocabulary} {t u : Tree} (reordered : t.Reordered u) :
    v.KnowsAll t ↔ v.KnowsAll u := by
  induction reordered with
  | refl => rfl
  | tail _ last ih => exact ih.trans (knowsAll_of_swaps last)

theorem measure?_of_reordered {v : Vocabulary} (named : v.NamesUnits) {t u : Tree}
    (reordered : t.Reordered u) : v.measure? t = v.measure? u := by
  induction reordered with
  | refl => rfl
  | tail _ last ih => exact ih.trans (measure?_of_swaps named last)

/-- Formulas that differ only in the order of the operands of sums and products are accepted
together. -/
theorem isAccepted_of_reordered {v : Vocabulary} (named : v.NamesUnits) {formula other : String}
    {t u : Tree} (parsed : Tree.parse formula = .ok t) (parsed' : Tree.parse other = .ok u)
    (reordered : t.Reordered u) :
    (v.validate formula).isAccepted = (v.validate other).isAccepted := by
  rw [Bool.eq_iff_iff]
  simp only [isAccepted_iff, parsed, parsed', Except.ok.injEq, exists_eq_left',
    exists_acceptsAs_iff, knowsAll_of_reordered reordered, measure?_of_reordered named reordered]

/-- Let no declared unit category be the empty text, and let two trees differ only in the order of
the operands of sums and products.  Then one is accepted if and only if the other is, and if they
are, they have the same category or each that of a plain number. -/
theorem acceptsAs_of_reordered {v : Vocabulary} (named : v.NamesUnits) {t u : Tree}
    (reordered : t.Reordered u) :
    ((∃ c, v.AcceptsAs t c) ↔ ∃ c, v.AcceptsAs u c) ∧
      ∀ c d, v.AcceptsAs t c → v.AcceptsAs u d → c = d ∨ IsPlain c ∧ IsPlain d := by
  have same : v.measure? t = v.measure? u := measure?_of_reordered named reordered
  refine ⟨?_, fun c d first second => ?_⟩
  · rw [exists_acceptsAs_iff, exists_acceptsAs_iff, knowsAll_of_reordered reordered, same]
  · simp only [measure?, first.2, second.2, Except.toOption, Option.map_some,
      Option.some.injEq] at same
    exact Measure.eq_or_plain_of_of_eq same

end Vocabulary

/-- A vocabulary of two plain numbers, pieces and a share in percent. -/
def shareVocabulary : Vocabulary :=
  .ofLists []
    [⟨"f1", "Pieces", ⟨"pieces", by decide⟩, .number, true, .blank, [], .numeric, some "pcs",
       some "count", none, none⟩,
     ⟨"f2", "Share", ⟨"share", by decide⟩, .number, true, .blank, [], .numeric, some "%",
       some "percentage", none, none⟩]
    [] false (.ofLists [] [] [])

theorem shareVocabulary_namesUnits : shareVocabulary.NamesUnits where
  output name o found := by
    simp [shareVocabulary, Vocabulary.ofLists, Vocabulary.outputEntries, Table.get?_ofList] at found
  field name f found := by
    obtain ⟨member, -⟩ := Table.mem_of_get?_indexBy found
    simp only [List.mem_cons, List.not_mem_nil, or_false] at member
    rcases member with rfl | rfl <;> simp
  property kind key item name p found := by
    cases kind <;>
      simp [shareVocabulary, Vocabulary.ofLists, Pricebook.ofLists, Catalog.ofLists, Catalog.get?,
        Catalog.shelf, Table.indexBy, Table.get?_ofList] at found

/-- A sum and a product in another order each: the one formula is a percentage and the other a
number of pieces. -/
theorem acceptsAs_of_reordered_share :
    ∃ t u : Tree, t.source = "2 + (pieces * share)" ∧ u.source = "(share * pieces) + 2" ∧
      shareVocabulary.AcceptsAs t (some "percentage") ∧
      shareVocabulary.AcceptsAs u (some "count") ∧
      IsPlain (some "percentage") ∧ IsPlain (some "count") := by
  let product : Tree := .binary .multiply (.name "pieces") (.name "share")
  let turned : Tree := .binary .multiply (.name "share") (.name "pieces")
  have reordered : (Tree.binary .add (.number "2") product).Reordered
      (.binary .add turned (.number "2")) :=
    .tail (.single (.right .add _ (.here (.inr rfl) _ _))) (.here (.inl rfl) _ _)
  have first : shareVocabulary.AcceptsAs (.binary .add (.number "2") product)
      (some "percentage") :=
    ⟨⟨[], toOption_eq_some_iff.mp (by decide +kernel)⟩, by decide +kernel⟩
  have second : shareVocabulary.AcceptsAs (.binary .add turned (.number "2"))
      (some "count") :=
    ⟨⟨[], toOption_eq_some_iff.mp (by decide +kernel)⟩, by decide +kernel⟩
  have plain := (Vocabulary.acceptsAs_of_reordered shareVocabulary_namesUnits reordered).2 _ _
    first second
  exact ⟨_, _, by decide +kernel, by decide +kernel, first, second, plain.resolve_left (by decide)⟩

end Formula

end Costing

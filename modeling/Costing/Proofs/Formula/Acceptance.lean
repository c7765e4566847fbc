import Costing.Formula.Validation
import Costing.Proofs.Formula.Evaluation
import Costing.Proofs.Formula.Scope

/-! # What an accepted formula can still run into

The check of references and the evaluation look names up in two different ways.  This module
proves them to agree: in a scope that has a value for every name of the vocabulary, an accepted
formula never turns out malformed and never calls a function with a wrong number of arguments,
and the only names without a meaning that it can meet are the *elusive* ones:

* `x.p`, where the item selected in the material or labor field `x` does not have the property
  that another item of the catalog has;
* `x.p`, where `x` is a catalog item hidden behind a variable or a parameter of the same name.

`Covers` is the relation between a vocabulary and a scope that carries the argument.  It holds
for the scope of a formula (`covers_ofInputs`) and for the scope of the body of each shared
function (`covers_forBody`); `allowed_of_evaluate` then follows the tree, and `allowed_of_openBody`
the nesting of bodies. -/

namespace Costing

theorem Catalog.get?_of_find? {c : Catalog} {name : String} {kind : CatalogKind} {item : Item}
    (found : c.find? name = some (kind, item)) : c.get? kind name = some item := by
  unfold Catalog.find? at found
  cases material : c.get? .material name with
  | some i =>
    simp only [material, Option.some.injEq, Prod.mk.injEq] at found
    obtain ⟨rfl, rfl⟩ := found
    exact material
  | none =>
    simp only [material, Option.map_eq_some_iff, Prod.mk.injEq] at found
    obtain ⟨i, labor, rfl, rfl⟩ := found
    exact labor

namespace Formula

open Machine (Callee callee callee_eq_builtin_iff callee_eq_shared_iff)

/-! ## Causes that remain possible -/

/-- The causes that a check of references leaves open, given the dotted references that may
have no meaning in spite of it. -/
def Allowed (elusive : String → String → Prop) : Cause → Prop
  | .malformed _ => False
  | .arity _ => False
  | .unknownName fault =>
    ∃ base property, fault.subject = base ++ "." ++ property ∧ elusive base property
  | _ => True

/-- The aborts that a check of references leaves open. -/
def Abort.Allowed (elusive : String → String → Prop) : Abort → Prop
  | .fault f => Formula.Allowed elusive f.cause
  | _ => True

theorem Abort.Allowed.within {elusive : String → String → Prop} {abort : Abort}
    (allowed : abort.Allowed elusive) (function : String) :
    (abort.within function).Allowed elusive := by
  cases abort with
  | fault f =>
    obtain ⟨cause, during⟩ := f
    cases during <;> exact allowed
  | loneExtremum => trivial
  | exhausted => trivial

theorem Abort.Allowed.mark {elusive : String → String → Prop} {abort : Abort}
    (allowed : abort.Allowed elusive) (c : Callee) : (c.mark abort).Allowed elusive := by
  cases c with
  | builtin => exact allowed
  | shared g => exact allowed.within _

/-- A scope has what a vocabulary promises, and what it lacks all the same is elusive. -/
structure Covers (elusive : String → String → Prop) (v : Vocabulary) (s : Scope) : Prop where
  book : s.book = v.book
  available : ∀ name, v.available.contains name = true → s.values.contains name = true
  selecting : ∀ name field kind, v.fields.get? name = some field →
    field.catalogKind? = some kind →
    (∃ key, s.values.get? name = some (.selection kind key)) ∨
      ∃ reason own, s.values.get? name = some (.broken reason own)
  unlisted : ∀ base property kind key item, (v.fields.get? base).isSome = true →
    s.values.get? base = some (.selection kind (some key)) →
    s.book.catalog.get? kind key = some item → item.property? property = none →
    elusive base property
  hidden : ∀ base property, v.fields.get? base = none → s.values.contains base = true →
    (s.book.catalog.find? base).isSome = true → elusive base property

/-! ## Names -/

section Names

variable {elusive : String → String → Prop} {v : Vocabulary} {s : Scope}

theorem allowed_of_selected {field : String} {kind : CatalogKind} {key : Option String}
    {neededFor : String} {cause : Cause}
    (failed : s.selected field kind key neededFor = .error cause) : Allowed elusive cause := by
  unfold Scope.selected at failed
  cases key with
  | none => cases failed; trivial
  | some k =>
    cases found : s.book.catalog.get? kind k with
    | some item => simp [found] at failed
    | none => simp only [found] at failed; cases failed; trivial

/-- A name that has a value never lacks a meaning. -/
theorem allowed_of_numeric {name : String} {value : Tagged} {cause : Cause}
    (failed : s.numeric name value = .error cause) : Allowed elusive cause := by
  cases value with
  | number x => simp [Scope.numeric] at failed
  | broken reason own => cases failed; trivial
  | missing => cases failed; trivial
  | text t => cases failed; trivial
  | selection kind key =>
    simp only [Scope.numeric, map_eq_error_iff] at failed
    exact allowed_of_selected failed

/-- A property lacks a meaning only if the item does not have it. -/
theorem allowed_of_propertyOf {kind : CatalogKind} {item base property : String} {cause : Cause}
    (lacking : s.book.catalog.property? kind item property = none → elusive base property)
    (failed : s.propertyOf kind item property (base ++ "." ++ property) = .error cause) :
    Allowed elusive cause := by
  unfold Scope.propertyOf Catalog.propertyValue? at failed
  cases found : s.book.catalog.property? kind item property with
  | none =>
    simp only [found, Except.error.injEq] at failed
    subst failed
    exact ⟨base, property, rfl, lacking found⟩
  | some p =>
    simp only [found] at failed
    cases number : p.toNumber (item ++ "." ++ property) with
    | ok x => simp [number, Except.map] at failed
    | error fault =>
      simp only [number, Except.map, Except.error.injEq] at failed
      subst failed
      trivial

/-- A dotted name behind a field that selects catalog items. -/
theorem allowed_of_selection {base property : String} {kind : CatalogKind} {key : Option String}
    {cause : Cause} (value : s.values.get? base = some (.selection kind key))
    (lacking : ∀ k item, key = some k → s.book.catalog.get? kind k = some item →
      item.property? property = none → elusive base property)
    (failed : s.resolveProperty base property (base ++ "." ++ property) = .error cause) :
    Allowed elusive cause := by
  simp only [Scope.resolveProperty, value] at failed
  cases key with
  | none => cases failed; trivial
  | some k =>
    cases listed : s.book.catalog.get? kind k with
    | none =>
      simp only [Scope.selected, listed, bind, Except.bind, Except.error.injEq] at failed
      subst failed
      trivial
    | some item =>
      simp only [Scope.selected, listed, bind, Except.bind] at failed
      refine allowed_of_propertyOf (fun absent => lacking k item rfl listed ?_) failed
      simpa [Catalog.property?, listed] using absent

/-- A dotted name behind a declared field: the field holds a selection of its own kind, or its
link is broken. -/
theorem allowed_of_selecting (covers : Covers elusive v s) {base property : String}
    {field : Field} {kind : CatalogKind} (declared : v.fields.get? base = some field)
    (catalogKind : field.catalogKind? = some kind) {cause : Cause}
    (failed : s.resolveProperty base property (base ++ "." ++ property) = .error cause) :
    Allowed elusive cause := by
  obtain ⟨key, value⟩ | ⟨reason, own, value⟩ :=
    covers.selecting base field kind declared catalogKind
  · refine allowed_of_selection value (fun k item same listed absent => ?_) failed
    subst same
    exact covers.unlisted base property kind k item (by simp [declared]) value listed absent
  · simp only [Scope.resolveProperty, value] at failed
    cases failed
    trivial

/-- A dotted name behind a value that hides a catalog item. -/
theorem allowed_of_hiding {base property : String} {tagged : Tagged}
    (value : s.values.get? base = some tagged) (hidden : elusive base property) {cause : Cause}
    (failed : s.resolveProperty base property (base ++ "." ++ property) = .error cause) :
    Allowed elusive cause := by
  cases tagged with
  | broken reason own =>
    simp only [Scope.resolveProperty, value] at failed
    cases failed
    trivial
  | selection kind key => exact allowed_of_selection value (fun _ _ _ _ _ => hidden) failed
  | number x =>
    simp only [Scope.resolveProperty, value] at failed
    cases failed
    exact ⟨base, property, rfl, hidden⟩
  | text t =>
    simp only [Scope.resolveProperty, value] at failed
    cases failed
    exact ⟨base, property, rfl, hidden⟩
  | missing =>
    simp only [Scope.resolveProperty, value] at failed
    cases failed
    exact ⟨base, property, rfl, hidden⟩

/-- A dotted name behind a catalog item that nothing hides. -/
theorem allowed_of_item {base property : String} {kind : CatalogKind} {item : Item}
    (found : s.book.catalog.find? base = some (kind, item))
    (listed : (item.property? property).isSome = true) (free : s.values.get? base = none)
    {cause : Cause}
    (failed : s.resolveProperty base property (base ++ "." ++ property) = .error cause) :
    Allowed elusive cause := by
  simp only [Scope.resolveProperty, free, found] at failed
  refine allowed_of_propertyOf (fun absent => ?_) failed
  simp only [Catalog.property?, Catalog.get?_of_find? found, Option.bind_some] at absent
  rw [absent] at listed
  cases listed

/-- A dotted name that is checked and has no value of its own. -/
theorem allowed_of_resolveProperty (covers : Covers elusive v s) {base property : String}
    (checked : v.checkDotted base property (base ++ "." ++ property) = .ok ())
    (unbound : s.values.get? (base ++ "." ++ property) = none) {cause : Cause}
    (failed : s.resolveProperty base property (base ++ "." ++ property) = .error cause) :
    Allowed elusive cause := by
  unfold Vocabulary.checkDotted at checked
  have unavailable : v.available.contains (base ++ "." ++ property) = false := by
    by_contra present
    have bound := covers.available _ (by simpa using present)
    simp [Table.contains, unbound] at bound
  simp only [unavailable, Bool.false_eq_true, if_false] at checked
  split at checked
  · cases checked
  · cases declared : v.fields.get? base with
    | some field =>
      simp only [declared] at checked
      cases catalogKind : field.catalogKind? with
      | none => simp [catalogKind] at checked
      | some kind => exact allowed_of_selecting covers declared catalogKind failed
    | none =>
      simp only [declared] at checked
      cases found : v.book.catalog.find? base with
      | none => simp [found] at checked
      | some entry =>
        obtain ⟨kind, item⟩ := entry
        have found' : s.book.catalog.find? base = some (kind, item) := covers.book ▸ found
        have listed : (item.property? property).isSome = true := by
          by_contra absent
          simp [found, absent] at checked
        cases value : s.values.get? base with
        | none => exact allowed_of_item found' listed value failed
        | some tagged =>
          have hidden := covers.hidden base property declared (Table.contains_of_get? value)
            (by simp [found'])
          exact allowed_of_hiding value hidden failed

/-- A checked name that fails to resolve fails for an allowed cause. -/
theorem allowed_of_resolve (covers : Covers elusive v s) {name : String}
    {warning : Option Warning} (checked : v.checkName name = .ok warning) {cause : Cause}
    (failed : s.resolve name = .error cause) : Allowed elusive cause := by
  unfold Scope.resolve at failed
  cases value : s.values.get? name with
  | some tagged => simp only [value] at failed; exact allowed_of_numeric failed
  | none =>
    simp only [value] at failed
    unfold Vocabulary.checkName at checked
    cases split : splitName name with
    | mk base property? =>
      cases property? with
      | some property =>
        simp only [split] at checked failed
        obtain ⟨rfl, -⟩ := eq_of_splitName split
        cases dotted : v.checkDotted base property (base ++ "." ++ property) with
        | error c => simp [dotted, Except.map] at checked
        | ok u => exact allowed_of_resolveProperty covers dotted value failed
      | none =>
        simp only [split] at checked failed
        have unavailable : v.available.contains name = false := by
          by_contra present
          have bound := covers.available _ (by simpa using present)
          simp [Table.contains, value] at bound
        simp only [Vocabulary.checkPlain, unavailable, Bool.false_eq_true, if_false] at checked
        simp only [Scope.resolvePlain, covers.book] at failed
        cases found : v.book.catalog.find? name with
        | some entry => simp [found] at failed
        | none =>
          cases constant : constant? name with
          | some x => simp [found, constant] at failed
          | none =>
            simp only [found, constant, Option.isSome_none, Bool.or_self, Bool.false_eq_true,
              if_false] at checked
            split at checked <;> cases checked

end Names

/-! ## Trees -/

/-- A built-in function has a value or refuses its arguments if their number is acceptable. -/
theorem Builtin.value?_isSome {f : Builtin} {args : List Float}
    (accepted : f.arity.accepts args.length = true) : (f.value? args).isSome = true := by
  rcases args with _ | ⟨x, _ | ⟨y, _ | ⟨z, rest⟩⟩⟩ <;> cases f <;>
    simp_all [Builtin.value?, Builtin.arity, Arity.accepts]

section Trees

variable {elusive : String → String → Prop} {v : Vocabulary} {s : Scope}

theorem allowed_of_spend {cost room : Nat} {abort : Abort}
    (failed : spend cost room = .error abort) : abort.Allowed elusive := by
  cases exhausted_of_spend failed
  trivial

theorem allowed_of_apply {op : Operator} {x y : Float} {source : String} {abort : Abort}
    (failed : op.apply x y source = .error abort) : abort.Allowed elusive := by
  cases op with
  | add => cases failed
  | subtract => cases failed
  | multiply => cases failed
  | divide =>
    simp only [Operator.apply] at failed
    split at failed <;> cases failed
    trivial
  | power =>
    simp only [Operator.apply] at failed
    split at failed <;> cases failed
    trivial

theorem allowed_of_callBuiltin {f : Builtin} {args : List Float} {source : String}
    {abort : Abort} (accepted : f.arity.accepts args.length = true)
    (failed : callBuiltin f args source = .error abort) : abort.Allowed elusive := by
  obtain ⟨result, value⟩ := Option.isSome_iff_exists.mp (Builtin.value?_isSome accepted)
  simp only [callBuiltin, value] at failed
  rcases result with (_ | _) | _ <;> cases failed <;> trivial

/-- A call that is checked calls something that exists and takes the number of arguments. -/
theorem exists_callee_of_checkCall (book : s.book = v.book) {function source : String} {count : Nat}
    (checked : v.checkCall function count source = .ok ()) :
    ∃ c, callee s function count source = .ok c := by
  unfold Vocabulary.checkCall at checked
  rw [← book] at checked
  split at checked
  · next f named =>
    split at checked
    · next accepted => exact ⟨_, callee_eq_builtin_iff.mpr ⟨named, accepted, rfl⟩⟩
    · cases checked
  · next shared =>
    split at checked
    · next g registered =>
      split at checked
      · next accepted => exact ⟨_, callee_eq_shared_iff.mpr ⟨shared, registered, accepted⟩⟩
      · cases checked
    · cases checked

/-- Bodies of the functions of a book fail only for allowed causes. -/
def BodiesAllowed (elusive : String → String → Prop) (book : Pricebook)
    (body : Option BodyEvaluator) : Prop :=
  ∀ evaluateBody, body = some evaluateBody → ∀ (s : Scope) name f args room abort,
    s.book = book → book.functions.get? name = some f →
    evaluateBody s f (bindArguments f args) room = .error abort → abort.Allowed elusive

mutual

/-- A tree whose nodes are all checked fails only for allowed causes. -/
theorem allowed_of_evaluate (covers : Covers elusive v s) {body : Option BodyEvaluator}
    (bodies : BodiesAllowed elusive s.book body) : ∀ (t : Tree) (room : Nat) (abort : Abort),
    (∀ node ∈ t.nodes, ∃ warning, v.checkNode node = .ok warning) →
    t.evaluate body s room = .error abort → abort.Allowed elusive
  | .number text, room, abort, _, failed => by simp [Tree.evaluate] at failed
  | .name n, room, abort, checked, failed => by
    simp only [Tree.evaluate, mapError_eq_error_iff] at failed
    obtain ⟨cause, resolved, rfl⟩ := failed
    obtain ⟨warning, known⟩ := checked (.name n) (by simp [Tree.nodes])
    exact allowed_of_resolve covers known resolved
  | .negate operand, room, abort, checked, failed => by
    simp only [Tree.evaluate, bind_eq_error_iff] at failed
    rcases failed with spent | ⟨left, _, inner | ⟨x, _, result⟩⟩
    · exact allowed_of_spend spent
    · exact allowed_of_evaluate covers bodies operand left _
        (fun node member => checked node (by simp [Tree.nodes, member])) inner
    · cases result
  | .binary op left right, room, abort, checked, failed => by
    simp only [Tree.evaluate, bind_eq_error_iff] at failed
    rcases failed with spent | ⟨room, _, first | ⟨x, _, second | ⟨y, _, result⟩⟩⟩
    · exact allowed_of_spend spent
    · exact allowed_of_evaluate covers bodies left room _
        (fun node member => checked node (by simp [Tree.nodes, member])) first
    · exact allowed_of_evaluate covers bodies right room _
        (fun node member => checked node (by simp [Tree.nodes, member])) second
    · exact allowed_of_apply result
  | .call function args, room, abort, checked, failed => by
    obtain ⟨warning, known⟩ := checked (.call function args) (by simp [Tree.nodes])
    have inArgs : ∀ node ∈ Tree.nodesOf args, ∃ warning, v.checkNode node = .ok warning :=
      fun node member => checked node (by simp [Tree.nodes, member])
    obtain ⟨_, known, _⟩ := map_eq_ok_iff.mp known
    obtain ⟨c, known⟩ := exists_callee_of_checkCall covers.book known
    cases evaluate_call_eq_error_iff.mp failed with
    | uncalled uncalled => cases known.symm.trans uncalled
    | closed => trivial
    | exhausted => trivial
    | argument _ _ _ inside mark =>
      exact mark ▸ (allowed_of_evaluateAll covers bodies args _ _ inArgs inside).mark _
    | builtin called _ values refused =>
      obtain ⟨-, accepted, -⟩ := callee_eq_builtin_iff.mp called
      rw [← length_of_evaluateAll values] at accepted
      exact allowed_of_callBuiltin accepted refused
    | body called opened _ _ inside mark =>
      obtain ⟨-, registered, -⟩ := callee_eq_shared_iff.mp called
      exact mark ▸ (bodies _ opened s function _ _ _ _ rfl registered inside).within _

/-- Arguments whose nodes are all checked fail only for allowed causes. -/
theorem allowed_of_evaluateAll (covers : Covers elusive v s) {body : Option BodyEvaluator}
    (bodies : BodiesAllowed elusive s.book body) :
    ∀ (args : List Tree) (room : Nat) (abort : Abort),
    (∀ node ∈ Tree.nodesOf args, ∃ warning, v.checkNode node = .ok warning) →
    Tree.evaluateAll body s args room = .error abort → abort.Allowed elusive
  | [], room, abort, _, failed => by simp [Tree.evaluateAll] at failed
  | arg :: rest, room, abort, checked, failed => by
    simp only [Tree.evaluateAll, bind_eq_error_iff] at failed
    rcases failed with first | ⟨x, _, others | ⟨xs, _, result⟩⟩
    · exact allowed_of_evaluate covers bodies arg room _
        (fun node member => checked node (by simp [Tree.nodesOf, member])) first
    · exact allowed_of_evaluateAll covers bodies rest room _
        (fun node member => checked node (by simp [Tree.nodesOf, member])) others
    · cases result

end

end Trees

/-! ## Bodies and formulas -/

theorem checked_of_checkTree {v : Vocabulary} {t : Tree} {warnings : List Warning}
    (accepted : v.checkTree t = .ok warnings) :
    ∀ node ∈ t.nodes, ∃ warning, v.checkNode node = .ok warning := by
  obtain ⟨found, handled, _⟩ := map_eq_ok_iff.mp accepted
  exact ok_of_mapM handled

/-- An accepted formula parses and all its nodes are checked. -/
theorem parse_of_isAccepted {v : Vocabulary} {formula : String}
    (accepted : (v.validate formula).isAccepted = true) :
    ∃ t, Tree.parse formula = .ok t ∧
      ∀ node ∈ t.nodes, ∃ warning, v.checkNode node = .ok warning := by
  unfold Vocabulary.validate at accepted
  cases verdict : v.check formula with
  | error cause => simp [verdict, Vocabulary.refusal, Verdict.isAccepted] at accepted
  | ok warnings =>
    simp only [Vocabulary.check, bind_eq_ok_iff, mapError_eq_ok_iff] at verdict
    obtain ⟨t, parsed, found, checked, _⟩ := verdict
    exact ⟨t, parsed, checked_of_checkTree checked⟩

/-- The vocabulary of the body of a shared function: its parameters. -/
def bodyVocabulary (book : Pricebook) (f : SharedFunction) : Vocabulary :=
  .ofLists (f.parameters.map (·.name.text)) [] [] false book

section Formulas

variable {elusive : String → String → Prop} {book : Pricebook}

/-- The scope of a body covers the vocabulary of the body.  A parameter holds a number or nothing,
so it hides a catalog item of the same name. -/
theorem covers_forBody {s : Scope} {f : SharedFunction} {args : List Float}
    (hidden : ∀ base property, base ∈ f.parameters.map (·.name.text) →
      (s.book.catalog.find? base).isSome = true → elusive base property) :
    Covers elusive (bodyVocabulary s.book f) (s.forBody (bindArguments f args)) where
  book := rfl
  available name present := by
    apply contains_bindArguments.mpr
    simpa [bodyVocabulary, Vocabulary.ofLists, Vocabulary.outputEntries, Table.indexBy,
      Table.ofList, Table.insertAll, Table.keys, Table.empty] using present
  selecting name field kind declared _ := by
    simp [bodyVocabulary, Vocabulary.ofLists, Table.indexBy, Table.get?_ofList] at declared
  unlisted base property kind key item declared _ _ _ := by
    simp [bodyVocabulary, Vocabulary.ofLists, Table.indexBy, Table.get?_ofList] at declared
  hidden base property _ present found :=
    hidden base property (contains_bindArguments.mp present) found

/-- Bodies that are accepted for their parameters fail only for allowed causes, however many of
them are open. -/
theorem allowed_of_openBody
    (accepted : ∀ name f, book.functions.get? name = some f →
      ((bodyVocabulary book f).validate f.formula).isAccepted = true)
    (hidden : ∀ name f base property, book.functions.get? name = some f →
      base ∈ f.parameters.map (·.name.text) → (book.catalog.find? base).isSome = true →
      elusive base property) (bodies : Nat) : BodiesAllowed elusive book (openBody bodies) := by
  induction bodies with
  | zero => intro evaluateBody opened; simp [openBody] at opened
  | succ bodies ih =>
    intro evaluateBody opened s name f args room abort sameBook registered failed
    subst sameBook
    simp only [openBody, Option.some.injEq] at opened
    subst opened
    obtain ⟨t, parsed, checked⟩ := parse_of_isAccepted (accepted name f registered)
    simp only [parsed] at failed
    -- the body sees its parameters alone, and the bodies it opens are covered by induction
    exact allowed_of_evaluate
      (covers_forBody fun base property => hidden name f base property registered)
      ih t room abort checked failed

/-- The dotted references that an accepted formula may find without a meaning, given the fields and
inputs of its scope. -/
inductive Elusive (book : Pricebook) (fields : List Field) (inputs : Table String FieldInput) :
    String → String → Prop where
  /-- The item that a material or labor field selects does not have the property. -/
  | unlisted {base property : String} {field : Field} {kind : CatalogKind} {key : String}
      {item : Item} :
      (Table.indexBy (·.name.text) fields).get? base = some field →
      field.catalogKind? = some kind →
      field.tag ((inputs.get? base).getD (.given .blank)) = .selection kind (some key) →
      book.catalog.get? kind key = some item →
      item.property? property = none →
      Elusive book fields inputs base property
  /-- A variable that is no field hides a catalog item of the same name. -/
  | variable {base property : String} :
      base ∉ fields.map (·.name.text) →
      inputs.contains base = true →
      (book.catalog.find? base).isSome = true →
      Elusive book fields inputs base property
  /-- A parameter of a shared function hides a catalog item of the same name. -/
  | parameter {base property name : String} {function : SharedFunction} :
      book.functions.get? name = some function →
      base ∈ function.parameters.map (·.name.text) →
      (book.catalog.find? base).isSome = true →
      Elusive book fields inputs base property

/-- A scope covers the vocabulary of its fields and of names that are all bound. -/
theorem covers_ofInputs {available : List String} {fields : List Field} {outputs : List Output}
    {bare : Bool} {inputs : Table String FieldInput}
    (bound : ∀ name ∈ available, inputs.contains name = true)
    (visible : ∀ o ∈ outputs, inputs.contains o.key = true ∧
      (bare = true → inputs.contains o.name.text = true)) (depth : Nat) :
    Covers (Elusive book fields inputs) (.ofLists available fields outputs bare book)
      ((Scope.ofInputs book fields inputs).atDepth depth) where
  book := rfl
  available name present := by
    refine (Scope.contains_ofInputs book).mpr ?_
    simp only [Vocabulary.ofLists, List.contains_iff_mem, List.mem_append] at present
    rcases present with (listed | declared) | output
    · exact Or.inr (bound name listed)
    · exact Or.inl (Table.contains_indexBy.mp (Table.contains_iff.mpr declared))
    · right
      have entry := Table.contains_ofList.mp (Table.contains_iff.mpr output)
      simp only [Vocabulary.outputEntries, List.mem_map, List.mem_flatMap] at entry
      obtain ⟨⟨_, _⟩, ⟨o, member, pair⟩, rfl⟩ := entry
      cases bare with
      | false =>
        simp only [Bool.false_eq_true, if_false, List.mem_singleton, Prod.mk.injEq] at pair
        exact pair.1 ▸ (visible o member).1
      | true =>
        simp only [if_true, List.mem_cons, Prod.mk.injEq, List.not_mem_nil, or_false] at pair
        rcases pair with ⟨rfl, _⟩ | ⟨rfl, _⟩
        · exact (visible o member).1
        · exact (visible o member).2 rfl
  selecting name field kind declared selects := by
    change (Table.indexBy (fun f : Field => f.name.text) fields).get? name = some field at declared
    simpa only [Scope.atDepth_values, Scope.get?_ofInputs, declared, Option.some.injEq] using
      tag_of_catalogKind selects _
  unlisted base property kind key item declared value listed absent := by
    obtain ⟨field, declared⟩ := Option.isSome_iff_exists.mp declared
    change (Table.indexBy (fun f : Field => f.name.text) fields).get? base = some field at declared
    simp only [Scope.atDepth_values, Scope.get?_ofInputs, declared, Option.some.injEq] at value
    exact .unlisted declared (catalogKind_of_tag value) value listed absent
  hidden base property undeclared present found := by
    change (Table.indexBy (fun f : Field => f.name.text) fields).get? base = none at undeclared
    have noField : base ∉ fields.map (·.name.text) := fun member => by
      have declared := Table.contains_indexBy.mpr member
      simp [Table.contains, undeclared] at declared
    rcases (Scope.contains_ofInputs book).mp present with member | given
    · exact absurd member noField
    · exact .variable noField given found

/-- Let a formula be accepted, and let the formula of every registered function be accepted for the
parameters of the function alone.  In every scope of the same fields and price book that binds all
available names and all visible outputs, to whatever values and however many bodies are open
already, the formula is not malformed, calls nothing with a wrong number of arguments, and meets no
name without a meaning but an elusive one. -/
theorem fault_of_accepted_formula {available : List String} {fields : List Field}
    {outputs : List Output} {bare : Bool} {inputs : Table String FieldInput} {formula : String}
    (accepted :
      ((Vocabulary.ofLists available fields outputs bare book).validate formula).isAccepted = true)
    (bodies : ∀ name f, book.functions.get? name = some f →
      ((bodyVocabulary book f).validate f.formula).isAccepted = true)
    (bound : ∀ name ∈ available, inputs.contains name = true)
    (visible : ∀ o ∈ outputs, inputs.contains o.key = true ∧
      (bare = true → inputs.contains o.name.text = true)) (depth : Nat) (fault : Fault)
    (failed : evaluate ((Scope.ofInputs book fields inputs).atDepth depth) formula =
      .fault fault) :
    fault.kind ≠ .malformed ∧ fault.kind ≠ .arity ∧
      (fault.kind = .unknownName → ∃ base property,
        fault.subject = some (base ++ "." ++ property) ∧
          Elusive book fields inputs base property) := by
  have allowed : Allowed (Elusive book fields inputs) fault.cause := by
    obtain ⟨t, parsed, checked⟩ := parse_of_isAccepted accepted
    simp only [evaluate, parsed] at failed
    split at failed
    · split at failed <;> cases failed
      trivial
    · next aborted =>
      cases failed
      exact allowed_of_evaluate (covers_ofInputs bound visible depth)
        (allowed_of_openBody bodies (fun _ _ _ _ registered => .parameter registered) _)
        t _ _ checked aborted
    · cases failed
    · cases failed
      trivial
  obtain ⟨cause, during⟩ := fault
  cases cause with
  | malformed f => exact allowed.elim
  | arity f => exact allowed.elim
  | unknownName f =>
    obtain ⟨base, property, subject, elusive⟩ := allowed
    exact ⟨nofun, nofun, fun _ => ⟨base, property, congrArg some subject, elusive⟩⟩
  | _ => exact ⟨nofun, nofun, nofun⟩

end Formulas

/-- A price book in which a variable called `wood` hides a material with a weight. -/
def timberBook : Pricebook :=
  .ofLists
    [{ id := "m1", name := "Wood", key := ⟨"wood", by decide⟩, category := "", unit := "",
       price := 2.5, sku := none, supplier := none, description := none,
       properties := [⟨none, "weight", .number, .number 3, none, none, some 3⟩] }]
    []
    [{ id := none, name := ⟨"twice", by decide⟩, description := none, category := none,
       parameters := [⟨⟨"x", by decide⟩, "", none, none, true⟩], formula := "2 * x",
       distinct := by decide +kernel }]

def timberOutputs : List Output :=
  [⟨"o1", "Area", ⟨"area", by decide⟩, "1", none, none, true⟩]

def timberInputs : Table String FieldInput :=
  .ofList [("wood", .given (.number 1)), ("out.area", .given (.number 2))]

/-- The hidden item is met: the formula is accepted, and its evaluation stops at `wood.weight`. -/
theorem fault_of_accepted_formula_hidden_item :
    ∃ fault, evaluate ((Scope.ofInputs timberBook [] timberInputs).atDepth 0)
        "twice(out.area) + wood.weight" = .fault fault ∧
      fault.kind = .unknownName ∧ ∃ base property,
        fault.subject = some (base ++ "." ++ property) ∧
          Elusive timberBook [] timberInputs base property := by
  have run : (match evaluate ((Scope.ofInputs timberBook [] timberInputs).atDepth 0)
      "twice(out.area) + wood.weight" with
    | .fault fault => fault.kind == .unknownName
    | _ => false) = true := by decide +kernel
  split at run
  · next fault failed =>
    have kind : fault.kind = .unknownName := by simpa using run
    refine ⟨fault, failed, kind, ?_⟩
    have accepted : ((Vocabulary.ofLists ["wood"] [] timberOutputs false timberBook).validate
        "twice(out.area) + wood.weight").isAccepted = true := by decide +kernel
    refine (fault_of_accepted_formula accepted ?_ (by decide +kernel) (by decide +kernel) 0 fault
      failed).2.2 kind
    intro name f registered
    obtain ⟨member, _⟩ := Table.mem_of_get?_indexBy registered
    simp only [List.mem_singleton] at member
    subst member
    decide +kernel
  · cases run

end Formula

end Costing

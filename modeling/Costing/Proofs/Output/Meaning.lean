import Costing.Proofs.Output.Results

/-! # What names stand for

A name in the expression of an output stands for a field or for an earlier output.  Where the
output has no value the search for a number goes on, and what it can still find is
`Module.StandsIn`: a catalog item, a constant or a property of an item (`standsIn_of_resolve`).

A name may also be read in two ways (`Module.Doubled`).  The key of an output is `out`, a point
and its name, and `out` may be the name of a field; and an output may have the name of a catalog
item, whose properties can be read only while the output has no value.

Where names are unambiguous none of this happens, and a name that means an output has a number
only if the output has a value (`valueAt_of_resolve`). -/

namespace Costing

open Formula (Scope splitName)

theorem Module.noField_of_base {m : Module} {name : String}
    (noBase : ∀ f ∈ m.fields, f.name.text ≠ (splitName name).1) :
    ∀ f ∈ m.fields, f.name.text ≠ name := by
  rintro f field rfl
  apply noBase f field
  rw [Formula.splitName_of_plain (VariableName.plain _)]

/-! ## What stands in for an output -/

/-- A name has a number although no value has the name. -/
inductive Module.StandsIn (m : Module) (book : Pricebook) (name : String) : Prop where
  | item {found : CatalogKind × Item} (split : splitName name = (name, none))
      (here : book.catalog.find? name = some found)
  | constant {x : Float} (split : splitName name = (name, none))
      (here : Formula.constant? name = some x)
  /-- A property of the item that a field selects. -/
  | selected {f : Field} {kind : CatalogKind} {key property : String} {x : Float}
      (field : f ∈ m.fields) (selects : f.catalogKind? = some kind)
      (split : splitName name = (f.name.text, some property))
      (offers : book.catalog.propertyValue? kind key property = .ok (some x))
  /-- A property of an item that is named in front of it. -/
  | property {kind : CatalogKind} {item : Item} {base property : String} {x : Float}
      (split : splitName name = (base, some property))
      (here : book.catalog.find? base = some (kind, item))
      (offers : book.catalog.propertyValue? kind base property = .ok (some x))

namespace Formula.Scope

variable {s : Scope} {name base property : String}

/-- A name with a point is resolved through its base unless a value has the whole name. -/
theorem resolve_dotted (split : splitName name = (base, some property))
    (unseen : s.values.get? name = none) :
    s.resolve name = s.resolveProperty base property name := by
  rw [Scope.resolve, unseen, split]

theorem resolve_plain (split : splitName name = (base, none))
    (unseen : s.values.get? name = none) : s.resolve name = s.resolvePlain name := by
  rw [Scope.resolve, unseen, split]

theorem offers_of_propertyOf {kind : CatalogKind} {item : String} {x : Float}
    (run : s.propertyOf kind item property name = .ok x) :
    s.book.catalog.propertyValue? kind item property = .ok (some x) := by
  rw [Scope.propertyOf] at run
  cases value : s.book.catalog.propertyValue? kind item property with
  | error fault => rw [value] at run; cases run
  | ok found => cases found <;> rw [value] at run <;> cases run; rfl

/-- Only the fields of a module bring selections into a scope. -/
theorem exists_field_of_selection {book : Pricebook} {fields : List Field}
    {inputs others : Table String FieldInput} {kind : CatalogKind} {key : Option String}
    (value : ((Scope.ofInputs book fields inputs).extend others).values.get? base =
      some (.selection kind key)) :
    ∃ f ∈ fields, f.name.text = base ∧ f.catalogKind? = some kind := by
  have untagged : ∀ input : FieldInput, input.tag ≠ .selection kind key := by
    intro input
    cases input with
    | broken reason own => nofun
    | given x =>
      rw [FieldInput.tag]
      split
      · nofun
      · exact toTagged_ne_selection _ _ _
  rw [Scope.get?_extend, Scope.get?_ofInputs] at value
  cases other : others.get? base with
  | some input =>
    rw [other] at value
    exact absurd (Option.some.inj value) (untagged input)
  | none =>
    rw [other] at value
    cases declared : (Table.indexBy (fun f : Field => f.name.text) fields).get? base with
    | some f =>
      rw [declared] at value
      obtain ⟨field, named⟩ := Table.mem_of_get?_indexBy declared
      exact ⟨f, field, named, catalogKind_of_tag (Option.some.inj value)⟩
    | none =>
      rw [declared] at value
      obtain ⟨input, _, tagged⟩ := Option.map_eq_some_iff.mp value
      exact absurd tagged (untagged input)

end Formula.Scope

theorem Module.standsIn_of_resolve {m : Module} {s : Scope} {name : String} {y : Float}
    (selects : ∀ {base kind key}, s.values.get? base = some (.selection kind key) →
      ∃ f ∈ m.fields, f.name.text = base ∧ f.catalogKind? = some kind)
    (unseen : s.values.get? name = none) (resolved : s.resolve name = .ok y) :
    m.StandsIn s.book name := by
  cases split : splitName name with
  | mk base property =>
    cases property with
    | none =>
      -- behind the values come the catalog and the constants
      obtain ⟨rfl, _⟩ := Formula.eq_of_splitName_none split
      rw [Scope.resolve_plain split unseen, Scope.resolvePlain] at resolved
      cases found : s.book.catalog.find? base with
      | some entry => exact .item split found
      | none =>
        simp only [found] at resolved
        cases constant : Formula.constant? base with
        | some x => exact .constant split constant
        | none =>
          simp only [constant] at resolved
          split at resolved <;> cases resolved
    | some property =>
      -- the base must be a selection, or an item by its name
      rw [Scope.resolve_dotted split unseen, Scope.resolveProperty] at resolved
      cases value : s.values.get? base with
      | none =>
        simp only [value] at resolved
        cases found : s.book.catalog.find? base with
        | some entry =>
          simp only [found] at resolved
          exact .property split found (Scope.offers_of_propertyOf resolved)
        | none =>
          simp only [found] at resolved
          split at resolved <;> cases resolved
      | some tagged =>
        rw [value] at resolved
        cases tagged with
        | selection kind key =>
          obtain ⟨⟨k, _⟩, _, offered⟩ := bind_eq_ok_iff.mp resolved
          obtain ⟨f, field, rfl, catalogued⟩ := selects value
          exact .selected field catalogued split (Scope.offers_of_propertyOf offered)
        | _ => cases resolved

/-! ## Names that mean one thing -/

/-- A name can be read in two ways. -/
inductive Module.Doubled (m : Module) (book : Pricebook) (name : String) : Prop where
  /-- The key of an output, in a module with a field `out`. -/
  | key {f : Field} {o : Output} (field : f ∈ m.fields) (base : f.name.text = "out")
      (output : o ∈ m.outputs) (named : name = o.key)
  /-- A property of a catalog item that has the name of an output. -/
  | property {o : Output} {property : String} (output : o ∈ m.outputs)
      (split : splitName name = (o.name.text, some property))
      (item : (book.catalog.find? o.name.text).isSome = true)

/-- Names mean one thing only: nothing but an output is reached through `out`, and neither a
catalog item nor a constant has the name of an output, case aside. -/
structure Module.Unambiguous (m : Module) (book : Pricebook) : Prop where
  field : ∀ f ∈ m.fields, f.name.text ≠ "out"
  item : "out" ∉ book.catalog.names
  apart : ∀ o ∈ m.outputs, ∀ n, n ∈ book.catalog.names ∨ n = "pi" ∨ n = "e" →
    Text.lower n ≠ Text.lower o.name.text

/-- Without a catalog, only a field `out` and the constants make names ambiguous. -/
theorem Module.unambiguous_of_noItems {m : Module} {functions : List SharedFunction}
    (field : ∀ f ∈ m.fields, f.name.text ≠ "out")
    (apart : ∀ o ∈ m.outputs, ∀ n ∈ ["pi", "e"], Text.lower n ≠ Text.lower o.name.text) :
    m.Unambiguous (.ofLists [] [] functions) where
  field := field
  item := nofun
  apart o output n among := by
    obtain item | rfl | rfl := among
    · cases item
    · exact apart o output "pi" (.head _)
    · exact apart o output "e" (.tail _ (.head _))

theorem mem_names_of_get? {c : Catalog} {name : String} {kind : CatalogKind} {i : Item}
    (found : c.get? kind name = some i) : name ∈ c.names := by
  have key := Table.mem_keys_of_get? found
  cases kind with
  | material => exact List.mem_append_left _ key
  | labor => exact List.mem_append_right _ key

theorem mem_names_of_find? {c : Catalog} {name : String} {found : CatalogKind × Item}
    (here : c.find? name = some found) : name ∈ c.names := by
  unfold Catalog.find? at here
  split at here
  · next material => exact mem_names_of_get? material
  · obtain ⟨item, labor, _⟩ := Option.map_eq_some_iff.mp here
    exact mem_names_of_get? labor

theorem eq_of_constant? {name : String} {x : Float} (found : Formula.constant? name = some x) :
    name = "pi" ∨ name = "e" := by
  obtain ⟨c, here, _⟩ := Option.map_eq_some_iff.mp found
  have member := List.mem_of_find?_eq_some here
  have named := List.find?_some here
  simp only [Formula.constants, List.mem_cons, List.not_mem_nil, or_false] at member
  obtain rfl | rfl := member
  · exact .inl (eq_of_beq named).symm
  · exact .inr (eq_of_beq named).symm

section
variable {m : Module} {book : Pricebook} (names : m.Unambiguous book)
include names

theorem Module.Unambiguous.not_doubled (name : String) : ¬m.Doubled book name := by
  rintro (⟨field, base, _, _⟩ | ⟨output, _, item⟩)
  · exact names.field _ field base
  · obtain ⟨found, here⟩ := Option.isSome_iff_exists.mp item
    exact names.apart _ output _ (.inl (mem_names_of_find? here)) rfl

/-- Nothing stands in for an output, unless the name is read as that of a field. -/
theorem Module.Unambiguous.not_standsIn {name : String} {k : Fin m.outputs.length}
    (index : outputIndex? m.outputs name = some k)
    (noBase : ∀ f ∈ m.fields, f.name.text ≠ (splitName name).1) : ¬m.StandsIn book name := by
  have output : m.outputs.get k ∈ m.outputs := List.getElem_mem k.isLt
  have named := Module.outputIndex?_eq_some_iff.mp index
  -- case aside, the name of an output belongs to nothing else
  have apart (split : splitName name = (name, none)) :
      ¬(name ∈ book.catalog.names ∨ name = "pi" ∨ name = "e") := by
    rw [dropOutputPrefix_of_plain (Formula.eq_of_splitName_none split).2] at named
    exact fun other => names.apart _ output name other
      (named.symm.trans (VariableName.lower_text _).symm)
  rintro (⟨split, here⟩ | ⟨split, here⟩ | ⟨field, _, split, _⟩ | ⟨split, here, _⟩)
  · exact apart split (.inl (mem_names_of_find? here))
  · exact apart split (.inr (eq_of_constant? here))
  · exact noBase _ field (by rw [split])
  · by_cases isKey : hasOutputPrefix name = true
    · have base := base_of_hasOutputPrefix isKey
      rw [split] at base
      exact names.item (base ▸ mem_names_of_find? here)
    · -- without the prefix, the name of the output would hold the point
      rw [dropOutputPrefix, if_neg isKey] at named
      apply VariableName.plain_folded (m.outputs.get k).name
      rw [named]
      apply point_mem_lower
      rw [(Formula.eq_of_splitName split).1]
      simp

end

/-! ## Numbers of names -/

section
variable {m : Module} {book : Pricebook} {inputs : Table String FieldInput}
  {results : List OutputResult} {position : Nat} {name base property : String}
variable (run : m.Run book inputs results) (declared : m.Declared inputs)
include run declared

theorem get?_of_base (noField : ∀ f ∈ m.fields, f.name.text ≠ base)
    (noOutput : ∀ o ∈ m.outputs, o.name.text ≠ base) (plain : '.' ∉ base.toList) :
    (m.scopeAt book inputs results position).values.get? base = none := by
  apply Module.get?_of_neither declared noField
  intro x sees
  obtain ⟨k, _, _, _, rfl | rfl⟩ := run.valueAt_of_sees sees
  · rw [Output.toList_key] at plain
    simp at plain
  · exact noOutput _ (List.getElem_mem k.isLt) rfl

/-- No value has the whole of a name with a field as its base and a property. -/
theorem get?_of_field_property (clear : ¬m.Doubled book name) {f : Field} (field : f ∈ m.fields)
    (split : splitName name = (f.name.text, some property)) :
    (m.scopeAt book inputs results position).values.get? name = none := by
  apply Module.get?_of_neither declared
  · rintro g _ rfl
    rw [Formula.splitName_of_plain (VariableName.plain _)] at split
    cases (Prod.mk.inj split).2
  · intro x sees
    obtain ⟨k, _, _, _, rfl | rfl⟩ := run.valueAt_of_sees sees
    · rw [Output.splitName_key] at split
      exact clear (.key field (Prod.mk.inj split).1.symm (List.getElem_mem k.isLt) rfl)
    · rw [Formula.splitName_of_plain (VariableName.plain _)] at split
      cases (Prod.mk.inj split).2

/-- The name of an output has no properties, whether the output has a value or not. -/
theorem toOption_resolveProperty_of_output {o : Output} (output : o ∈ m.outputs)
    (noItem : book.catalog.find? o.name.text = none) :
    ((m.scopeAt book inputs results position).resolveProperty o.name.text property name).toOption =
      none := by
  rw [Scope.resolveProperty]
  by_cases sees : ∃ x, Sees (results.take position) o.name.text x
  · obtain ⟨x, sees⟩ := sees
    rw [run.get?_of_sees sees]
    rfl
  · have unseen : (m.scopeAt book inputs results position).values.get? o.name.text = none :=
      Module.get?_of_neither declared
        (fun f field same => Module.field_ne_output field output (congrArg String.toLower same))
        (fun x seen => sees ⟨x, seen⟩)
    have sameBook : (m.scopeAt book inputs results position).book = book := rfl
    simp only [unseen, sameBook, noItem]
    split <;> rfl

/-- A name with a number does not read a field that is broken. -/
theorem given_of_resolve (clear : ¬m.Doubled book name) {y : Float} {f : Field}
    (field : f ∈ m.fields) (base : (splitName name).1 = f.name.text)
    (resolved : (m.scopeAt book inputs results position).resolve name = .ok y)
    (reason : BrokenReason) (own : FieldValue) :
    inputs.get? f.name.text ≠ some (.broken reason own) := by
  intro broken
  have value : (m.scopeAt book inputs results position).values.get? f.name.text =
      some (.broken reason own) := by
    rw [run.get?_of_field field, broken]
    rfl
  cases split : splitName name with
  | mk b property =>
    rw [split] at base
    dsimp only at base
    subst base
    -- the field is read, as the name itself or as the base of a property
    cases property with
    | none =>
      obtain ⟨rfl, _⟩ := Formula.eq_of_splitName_none split
      rw [Scope.resolve, value] at resolved
      cases resolved
    | some property =>
      have unseen : (m.scopeAt book inputs results position).values.get? name = none :=
        get?_of_field_property run declared clear field split
      rw [Scope.resolve_dotted split unseen, Scope.resolveProperty, value] at resolved
      cases resolved

omit run in
/-- A name for which nothing stands in has a number only if an earlier output has it. -/
theorem sees_of_resolve (noStandIn : ¬m.StandsIn book name)
    (noField : ∀ f ∈ m.fields, f.name.text ≠ name) {y : Float}
    (resolved : (m.scopeAt book inputs results position).resolve name = .ok y) :
    ∃ x, Sees (results.take position) name x := by
  by_contra unseen
  have hidden : (m.scopeAt book inputs results position).values.get? name = none :=
    Module.get?_of_neither declared noField fun x sees => unseen ⟨x, sees⟩
  exact noStandIn (Module.standsIn_of_resolve Scope.exists_field_of_selection hidden resolved)

/-- A name that means an output has a number only if the output has a value. -/
theorem valueAt_of_resolve (names : m.Unambiguous book) {y : Float} {k : Fin m.outputs.length}
    (index : outputIndex? m.outputs name = some k)
    (noBase : ∀ f ∈ m.fields, f.name.text ≠ (splitName name).1)
    (resolved : (m.scopeAt book inputs results position).resolve name = .ok y) :
    ∃ x, valueAt results k.val = some x := by
  obtain ⟨x, sees⟩ := sees_of_resolve declared (names.not_standsIn index noBase)
    (Module.noField_of_base noBase) resolved
  obtain ⟨k', index', _, value, _⟩ := run.valueAt_of_sees sees
  rw [index] at index'
  cases index'
  exact ⟨x, value⟩

end

end Costing

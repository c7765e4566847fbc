import Costing.Proofs.Formula.Analysis
import Costing.Proofs.Formula.Extremum
import Costing.Proofs.Output.Meaning
import Costing.Proofs.Repetition

/-! # Candidates and validation

The candidates of a vocabulary are enumerated universe by universe, from its fields and items to
their properties.  Validation goes the other way: it splits a name and asks one universe after the
other for the base.  `Offers` lists the universes, and is what both sides are compared with.

* What validation accepts is offered (`offers_of_admits`, `offers_of_calls`).
* What is offered is accepted, unless a name of one universe hides one of another
  (`Offers.accepted`). -/

namespace Costing

/-- A shared function takes an argument for each of its parameters. -/
theorem SharedFunction.accepts_all (f : SharedFunction) :
    f.arity.accepts f.parameters.length = true := by
  simp [SharedFunction.arity, Formula.Arity.accepts, List.length_filter_le]

namespace Formula

/-! ## Names of items and fields -/

theorem mem_dotted {name base : String} {properties : List String} :
    name ∈ dotted base properties ↔ ∃ p ∈ properties, base ++ "." ++ p = name :=
  List.mem_map

theorem isSome_property?_iff {i : Item} {property : String} :
    (i.property? property).isSome = true ↔ property ∈ i.propertyNames :=
  Table.contains_iff

theorem fieldHasProperty_iff {c : Catalog} {f : Field} {property : String} :
    c.fieldHasProperty f property = true ↔
      ∃ i ∈ c.itemsForField f, property ∈ i.propertyNames := by
  simp only [Catalog.fieldHasProperty, List.any_eq_true, isSome_property?_iff]

/-- Only a field that selects items has properties. -/
theorem exists_kind_of_fieldHasProperty {c : Catalog} {f : Field} {property : String}
    (has : c.fieldHasProperty f property = true) : ∃ kind, f.catalogKind? = some kind := by
  obtain ⟨i, reached, -⟩ := fieldHasProperty_iff.mp has
  unfold Catalog.itemsForField at reached
  cases half : f.catalogKind? with
  | none => simp [half] at reached
  | some kind => exact ⟨kind, rfl⟩

theorem mem_fieldNames {c : Catalog} {f : Field} {name : String} :
    name ∈ fieldNames c f ↔ name = f.name.text ∨
      ∃ p, c.fieldHasProperty f p = true ∧ f.name.text ++ "." ++ p = name := by
  simp only [fieldNames, List.mem_cons, List.mem_flatMap, mem_dotted, fieldHasProperty_iff]
  grind

theorem mem_itemNames {c : Catalog} {kind : CatalogKind} {name : String} :
    name ∈ itemNames c kind ↔ ∃ base i, c.get? kind base = some i ∧
      (name = base ∨ ∃ p, (i.property? p).isSome = true ∧ base ++ "." ++ p = name) := by
  have stored (base : String) (i : Item) :
      (base, i) ∈ (c.shelf kind).entries ↔ c.get? kind base = some i :=
    ⟨Table.get?_of_mem, Entries.mem_of_get?⟩
  simp only [itemNames, List.mem_flatMap, Prod.exists, stored, List.mem_cons, mem_dotted,
    isSome_property?_iff]

/-! ## Built-in names -/

theorem mem_mathNames_iff {name : String} :
    name ∈ mathNames ↔ (Builtin.ofName? name).isSome = true ∨ (constant? name).isSome = true := by
  simp only [mathNames, Builtin.ofName?, Builtin.all, constant?, constants, Option.isSome_map,
    List.find?_isSome, List.mem_cons, List.not_mem_nil, or_false, exists_eq_or_imp, exists_eq_left,
    Builtin.name, beq_iff_eq, eq_comm (a := name)]
  grind

/-! ## What a vocabulary offers -/

namespace Vocabulary

/-- The names of all universes that a formula can draw on. -/
inductive Offers (v : Vocabulary) : String → Prop where
  | available {name : String} (listed : name ∈ v.available) : v.Offers name
  | fieldProperty {f : Field} {property : String} (declared : v.fields.get? f.name.text = some f)
      (has : v.book.catalog.fieldHasProperty f property = true) :
      v.Offers (f.name.text ++ "." ++ property)
  | item {kind : CatalogKind} {name : String} {i : Item}
      (found : v.book.catalog.get? kind name = some i) : v.Offers name
  | itemProperty {kind : CatalogKind} {name : String} {i : Item} {property : String}
      (found : v.book.catalog.get? kind name = some i)
      (has : (i.property? property).isSome = true) : v.Offers (name ++ "." ++ property)
  | shared {name : String} (registered : v.book.functions.contains name = true) : v.Offers name
  | builtin {name : String} (known : (Builtin.ofName? name).isSome = true) : v.Offers name
  | constant {name : String} (known : (constant? name).isSome = true) : v.Offers name

/-- The fields and items of a vocabulary stand under their own names. -/
structure Keyed (v : Vocabulary) : Prop where
  declared : ∀ f, f ∈ v.fields.values ↔ v.fields.get? f.name.text = some f
  field : ∀ name f, v.fields.get? name = some f → f.name.text = name
  function : ∀ name, name ∈ v.book.functions.values.map (·.name.text) ↔
    v.book.functions.contains name = true
  plain : ∀ kind name i, v.book.catalog.get? kind name = some i → '.' ∉ name.toList
  available : v.fields.keys ⊆ v.available

theorem keyed_ofLists (available : List String) (fields : List Field) (outputs : List Output)
    (bare : Bool) (materials : List Material) (labor : List Labor)
    (functions : List SharedFunction) :
    (ofLists available fields outputs bare (.ofLists materials labor functions)).Keyed where
  declared _ := Table.mem_values_indexBy
  field _ _ found := (Table.mem_of_get?_indexBy found).2
  function name := by
    constructor
    · intro member
      obtain ⟨f, value, rfl⟩ := List.mem_map.mp member
      exact Table.contains_of_get? (Table.mem_values_indexBy.mp value)
    · intro registered
      obtain ⟨f, found⟩ := Option.isSome_iff_exists.mp registered
      obtain ⟨-, rfl⟩ := Table.mem_of_get?_indexBy found
      exact List.mem_map.mpr ⟨f, Table.mem_values_indexBy.mpr found, rfl⟩
  plain kind name i found := by
    have key : i.key.text = name := by
      cases kind <;> exact (Table.mem_of_get?_indexBy found).2
    exact key ▸ i.key.plain
  available _ member := List.mem_append_left _ (List.mem_append_right _ member)

section
variable {v : Vocabulary} {name : String}

theorem offers_of_mem_itemNames {kind : CatalogKind}
    (member : name ∈ itemNames v.book.catalog kind) : v.Offers name := by
  obtain ⟨base, i, found, rfl | ⟨property, has, rfl⟩⟩ := mem_itemNames.mp member
  · exact .item found
  · exact .itemProperty found has

theorem offers_of_mem_fieldNames (keyed : v.Keyed) {f : Field}
    (declared : v.fields.get? f.name.text = some f)
    (member : name ∈ fieldNames v.book.catalog f) : v.Offers name := by
  obtain rfl | ⟨property, has, rfl⟩ := mem_fieldNames.mp member
  · exact .available (keyed.available (Table.mem_keys_of_get? declared))
  · exact .fieldProperty declared has

/-- The candidates are the names of all universes. -/
theorem mem_candidates_iff (keyed : v.Keyed) : name ∈ v.candidates ↔ v.Offers name := by
  rw [candidates, Formula.candidates, List.mem_eraseDups]
  simp only [List.mem_append, List.mem_flatMap, keyed.declared, keyed.function, mem_mathNames_iff,
    or_assoc]
  constructor
  · rintro (listed | ⟨f, declared, field⟩ | material | labor | registered | builtin | known)
    · exact .available listed
    · exact offers_of_mem_fieldNames keyed declared field
    · exact offers_of_mem_itemNames material
    · exact offers_of_mem_itemNames labor
    · exact .shared registered
    · exact .builtin builtin
    · exact .constant known
  · have ofItem {kind : CatalogKind} {others : Prop}
        (member : name ∈ itemNames v.book.catalog kind) :
        name ∈ itemNames v.book.catalog .material ∨ name ∈ itemNames v.book.catalog .labor ∨
          others := by
      cases kind with
      | material => exact .inl member
      | labor => exact .inr (.inl member)
    intro offers
    cases offers with
    | available listed => exact .inl listed
    | fieldProperty declared has =>
      exact .inr (.inl ⟨_, declared, mem_fieldNames.mpr (.inr ⟨_, has, rfl⟩)⟩)
    | item found => exact .inr (.inr (ofItem (mem_itemNames.mpr ⟨_, _, found, .inl rfl⟩)))
    | itemProperty found has =>
      exact .inr (.inr (ofItem (mem_itemNames.mpr ⟨_, _, found, .inr ⟨_, has, rfl⟩⟩)))
    | shared registered => exact .inr (.inr (.inr (.inr (.inl registered))))
    | builtin known => exact .inr (.inr (.inr (.inr (.inr (.inl known)))))
    | constant known => exact .inr (.inr (.inr (.inr (.inr (.inr known)))))

/-! ## What validation accepts -/

/-- Validation accepts a name that stands for a number. -/
def Admits (v : Vocabulary) (name : String) : Prop := ∃ warning, v.checkName name = .ok warning

/-- Validation accepts some calls of a function. -/
def Calls (v : Vocabulary) (function : String) : Prop :=
  ∃ count source, v.checkCall function count source = .ok ()

theorem admits_plain_iff (plain : '.' ∉ name.toList) :
    v.Admits name ↔ name ∈ v.available ∨ (v.book.catalog.find? name).isSome = true ∨
      (constant? name).isSome = true := by
  simp only [Admits, checkName, splitName_of_plain plain, checkPlain, List.contains_iff_mem,
    Bool.or_eq_true]
  split_ifs <;> simp_all

theorem checkDotted_eq_ok_iff {base property : String} :
    v.checkDotted base property name = .ok () ↔ name ∈ v.available ∨ base ≠ "out" ∧
      ((∃ f, v.fields.get? base = some f ∧ v.book.catalog.fieldHasProperty f property = true) ∨
        v.fields.get? base = none ∧ ∃ kind i, v.book.catalog.find? base = some (kind, i) ∧
          (i.property? property).isSome = true) := by
  unfold checkDotted
  by_cases listed : name ∈ v.available
  · simp [listed]
  by_cases output : base = "out"
  · simp [listed, output]
  simp only [List.contains_iff_mem, listed, output, if_false, false_or, ne_eq, not_false_eq_true,
    true_and]
  -- a field hides an item of its name, also a field that selects none
  cases declared : v.fields.get? base with
  | some f =>
    by_cases has : v.book.catalog.fieldHasProperty f property = true
    · obtain ⟨kind, half⟩ := exists_kind_of_fieldHasProperty has
      simp [half, has]
    · cases half : f.catalogKind? <;> simp [half, has]
  | none =>
    cases found : v.book.catalog.find? base with
    | none => simp
    | some entry =>
      obtain ⟨kind, i⟩ := entry
      by_cases has : (i.property? property).isSome = true <;> simp [has]

theorem admits_dotted_iff {base property : String} (plain : '.' ∉ base.toList) :
    v.Admits (base ++ "." ++ property) ↔
      v.checkDotted base property (base ++ "." ++ property) = .ok () := by
  simp only [Admits, checkName, splitName_dotted plain, map_eq_ok_iff]
  constructor
  · rintro ⟨_, ⟨⟩, checked, _⟩
    exact checked
  · exact fun checked => ⟨none, (), checked, rfl⟩

/-- Every function can be called with some number of arguments. -/
theorem calls_iff : v.Calls name ↔
    (Builtin.ofName? name).isSome = true ∨ v.book.functions.contains name = true := by
  unfold Calls checkCall
  cases known : Builtin.ofName? name with
  | some f => simpa using ⟨1, f.accepts_one⟩
  | none =>
    cases registered : v.book.functions.get? name with
    | some f => simpa [Table.contains, registered] using ⟨f.parameters.length, f.accepts_all⟩
    | none => simp [Table.contains, registered]

/-- Every name that validation accepts is offered. -/
theorem offers_of_admits (keyed : v.Keyed) (admits : v.Admits name) : v.Offers name := by
  obtain plain | ⟨base, property, plain, rfl⟩ := plain_or_dotted name
  · obtain listed | item | constant := (admits_plain_iff plain).mp admits
    · exact .available listed
    · obtain ⟨⟨kind, i⟩, found⟩ := Option.isSome_iff_exists.mp item
      exact .item (Catalog.get?_of_find? found)
    · exact .constant constant
  · obtain listed | ⟨-, ⟨f, declared, has⟩ | ⟨-, kind, i, found, has⟩⟩ :=
      checkDotted_eq_ok_iff.mp ((admits_dotted_iff plain).mp admits)
    · exact .available listed
    · obtain rfl := keyed.field base f declared
      exact .fieldProperty declared has
    · exact .itemProperty (Catalog.get?_of_find? found) has

theorem offers_of_calls (calls : v.Calls name) : v.Offers name := by
  obtain builtin | registered := calls_iff.mp calls
  · exact .builtin builtin
  · exact .shared registered

/-! ## What is offered is accepted -/

/-- No field has the name of an item and no material that of labor, and none of these names is the
one that stands before the names of outputs. -/
structure NamesApart (v : Vocabulary) : Prop where
  fields : v.fields.keys.Disjoint v.book.catalog.names
  halves : v.book.catalog.materials.keys.Disjoint v.book.catalog.labor.keys
  noField : "out" ∉ v.fields.keys
  noItem : "out" ∉ v.book.catalog.names

/-- An item that no other hides is the one that its name means. -/
theorem NamesApart.find?_of_get? (apart : v.NamesApart) {kind : CatalogKind} {i : Item}
    (found : v.book.catalog.get? kind name = some i) :
    v.book.catalog.find? name = some (kind, i) := by
  unfold Catalog.find?
  cases kind with
  | material => rw [found]
  | labor =>
    have labor : name ∈ v.book.catalog.labor.keys := Table.mem_keys_of_get? found
    have none : v.book.catalog.get? .material name = none :=
      Table.get?_of_not_mem_keys fun material => apart.halves material labor
    rw [none, found]
    rfl

theorem admits_of_available (listed : name ∈ v.available) : v.Admits name := by
  obtain plain | ⟨base, property, plain, rfl⟩ := plain_or_dotted name
  · exact (admits_plain_iff plain).mpr (.inl listed)
  · exact (admits_dotted_iff plain).mpr (checkDotted_eq_ok_iff.mpr (.inl listed))

/-- What is offered is accepted where no name hides another. -/
theorem Offers.accepted (keyed : v.Keyed) (apart : v.NamesApart) (offers : v.Offers name) :
    v.Admits name ∨ v.Calls name := by
  cases offers with
  | available listed => exact .inl (admits_of_available listed)
  | @fieldProperty f property declared has =>
    have key := Table.mem_keys_of_get? declared
    have other : f.name.text ≠ "out" := fun same => apart.noField (same ▸ key)
    exact .inl ((admits_dotted_iff f.name.plain).mpr
      (checkDotted_eq_ok_iff.mpr (.inr ⟨other, .inl ⟨f, declared, has⟩⟩)))
  | item found =>
    have meant := apart.find?_of_get? found
    exact .inl ((admits_plain_iff (keyed.plain _ _ _ found)).mpr (.inr (.inl (by rw [meant]; rfl))))
  | @itemProperty kind base i property found has =>
    have key := mem_names_of_get? found
    have other : base ≠ "out" := fun same => apart.noItem (same ▸ key)
    -- validation comes to the items only if no field has the name
    have noField : v.fields.get? base = none :=
      Table.get?_of_not_mem_keys fun field => apart.fields field key
    exact .inl ((admits_dotted_iff (keyed.plain _ _ _ found)).mpr (checkDotted_eq_ok_iff.mpr
      (.inr ⟨other, .inr ⟨noField, kind, i, apart.find?_of_get? found, has⟩⟩)))
  | shared registered => exact .inr (calls_iff.mpr (.inr registered))
  | builtin known => exact .inr (calls_iff.mpr (.inl known))
  | constant known =>
    have plain : '.' ∉ name.toList := by
      obtain ⟨x, found⟩ := Option.isSome_iff_exists.mp known
      obtain rfl | rfl := eq_of_constant? found <;> decide
    exact .inl ((admits_plain_iff plain).mpr (.inr (.inr known)))

end

end Vocabulary

/-- The candidates of a vocabulary have no repetitions and hold every name that validation accepts,
whether it stands for a number or is called.  And where no field shares its name with an item and no
material with labor, and none of them is named `out`, every candidate is accepted or is the name of
a function. -/
theorem candidates_are_accepted_names (available : List String) (fields : List Field)
    (outputs : List Output) (bare : Bool) (materials : List Material) (labor : List Labor)
    (functions : List SharedFunction) :
    let v : Vocabulary :=
      .ofLists available fields outputs bare (.ofLists materials labor functions)
    v.candidates.Nodup ∧
    (∀ name, v.Admits name ∨ v.Calls name → name ∈ v.candidates) ∧
    (v.NamesApart → ∀ name ∈ v.candidates, v.Admits name ∨
      (Builtin.ofName? name).isSome = true ∨ v.book.functions.contains name = true) := by
  intro v
  have keyed : v.Keyed := Vocabulary.keyed_ofLists ..
  refine ⟨nodup_eraseDups _, fun name accepted => ?_, fun apart name candidate => ?_⟩
  · refine (Vocabulary.mem_candidates_iff keyed).mpr ?_
    obtain admits | calls := accepted
    · exact Vocabulary.offers_of_admits keyed admits
    · exact Vocabulary.offers_of_calls calls
  · have offers := (Vocabulary.mem_candidates_iff keyed).mp candidate
    exact (offers.accepted keyed apart).imp_right Vocabulary.calls_iff.mp

/-- A board is chosen from the materials that are wood. -/
def boardFields : List Field :=
  [⟨"f1", "Board", ⟨"board", by decide⟩, .material, true, .blank, [], .numeric, none, none,
    some "wood", none⟩]

def boardMaterials : List Material :=
  [{ id := "m1", name := "Oak", key := ⟨"oak", by decide⟩, category := "wood", unit := "",
     price := 2.5, sku := none, supplier := none, description := none,
     properties := [⟨none, "density", .number, .number 3, none, none, some 3⟩] },
   { id := "m2", name := "Glue", key := ⟨"glue", by decide⟩, category := "", unit := "",
     price := 1, sku := none, supplier := none, description := none,
     properties := [⟨none, "weight", .number, .number 1, none, none, some 1⟩] }]

/-- The density of a board is offered and accepted; its weight is neither, as glue is no wood. -/
theorem candidates_are_accepted_names_board :
    let v : Vocabulary := .ofLists ["depth"] boardFields timberOutputs false
      (.ofLists boardMaterials [] [])
    v.NamesApart ∧ "board.density" ∈ v.candidates ∧ v.Admits "board.density" ∧
      "board.weight" ∉ v.candidates ∧ ¬ v.Admits "board.weight" := by
  intro v
  obtain ⟨-, complete, sound⟩ := candidates_are_accepted_names ["depth"] boardFields timberOutputs
    false boardMaterials [] []
  have fields : v.fields.keys = ["board"] := by decide +kernel
  have names : v.book.catalog.names = ["oak", "glue"] := by decide +kernel
  have labor : v.book.catalog.labor.keys = [] := by decide +kernel
  have apart : v.NamesApart := by
    constructor
    · rw [fields, names, List.singleton_disjoint]
      decide
    · rw [labor]
      exact List.disjoint_nil_right _
    · rw [fields]
      decide
    · rw [names]
      decide
  have density : "board.density" ∈ v.candidates := by decide +kernel
  have weight : "board.weight" ∉ v.candidates := by decide +kernel
  refine ⟨apart, density, ?_, weight, fun admits => weight (complete _ (.inl admits))⟩
  obtain admits | builtin | registered := sound apart _ density
  · exact admits
  · exact absurd builtin (by decide)
  · exact absurd registered (by decide +kernel)

end Formula

end Costing

import Costing.Formula.Evaluation
import Costing.Proofs.Formula.Tag
import Costing.Proofs.Table
import Mathlib.Data.List.TakeWhile

/-! # Names and scopes

What `splitName` finds in a name, and what value a name has in a scope that is built from inputs
(`get?_ofInputs`) or opened for the body of a shared function (`contains_bindArguments`). -/

namespace Costing.Formula

/-! ## Splitting names -/

/-- A name with a point is its base, the point and its property. -/
theorem eq_of_splitName {name base property : String}
    (split : splitName name = (base, some property)) :
    name = base ++ "." ++ property ∧ '.' ∉ base.toList := by
  unfold splitName at split
  have whole := List.takeWhile_append_dropWhile (p := (· != '.')) (l := name.toList)
  have stop := List.head?_dropWhile_not (· != '.') name.toList
  -- what is left of the name behind its base is empty or starts with the point
  generalize name.toList.dropWhile (· != '.') = rest at split whole stop
  cases rest with
  | nil => simp at split
  | cons c after =>
    simp only [Prod.mk.injEq, Option.some.injEq] at split
    obtain ⟨rfl, rfl⟩ := split
    simp only [List.head?_cons, bne_eq_false_iff_eq] at stop
    subst stop
    constructor
    · apply String.toList_inj.mp
      simpa using whole.symm
    · intro member
      have passed := List.all_takeWhile (p := (· != '.')) (l := name.toList)
      rw [List.all_eq_true] at passed
      simpa using passed '.' (by simpa using member)

/-- A name that is not split is its own base and has no point. -/
theorem eq_of_splitName_none {name base : String} (split : splitName name = (base, none)) :
    base = name ∧ '.' ∉ name.toList := by
  unfold splitName at split
  cases rest : name.toList.dropWhile (· != '.') with
  | cons c after => simp [rest] at split
  | nil =>
    simp only [rest, Prod.mk.injEq, and_true] at split
    refine ⟨split.symm, fun member => ?_⟩
    have passed := List.dropWhile_eq_nil_iff.mp rest '.' member
    simp at passed

/-- There is no point in the base of a name. -/
theorem plain_base (name : String) : '.' ∉ (splitName name).1.toList := by
  cases split : splitName name with
  | mk base property =>
    cases property with
    | some property => exact (eq_of_splitName split).2
    | none =>
      obtain ⟨same, plain⟩ := eq_of_splitName_none split
      exact same ▸ plain

/-- A name has no point, or it is a base without one, the point and a property. -/
theorem plain_or_dotted (name : String) : '.' ∉ name.toList ∨
    ∃ base property, '.' ∉ base.toList ∧ name = base ++ "." ++ property := by
  cases split : splitName name with
  | mk base property? =>
    cases property? with
    | none => exact .inl (eq_of_splitName_none split).2
    | some property =>
      obtain ⟨same, plain⟩ := eq_of_splitName split
      exact .inr ⟨base, property, plain, same⟩

/-- A name without a point is not split. -/
theorem splitName_of_plain {name : String} (plain : '.' ∉ name.toList) :
    splitName name = (name, none) := by
  have rest : name.toList.dropWhile (· != '.') = [] := by
    rw [List.dropWhile_eq_nil_iff]
    intro c member
    simpa using fun same : c = '.' => plain (same ▸ member)
  simp [splitName, rest]

theorem splitName_dotted {base : String} (plain : '.' ∉ base.toList) (property : String) :
    splitName (base ++ "." ++ property) = (base, some property) := by
  have passed : ∀ c ∈ base.toList, (c != '.') = true := by
    intro c member
    simpa using fun same : c = '.' => plain (same ▸ member)
  have whole : (base ++ "." ++ property).toList = base.toList ++ '.' :: property.toList := by simp
  rw [splitName, whole, List.dropWhile_append_of_pos passed, List.takeWhile_append_of_pos passed]
  simp

/-! ## Values in scopes -/

namespace Scope

/-- A declared name has the value that its field tags, any other one has its tagged input. -/
theorem get?_ofInputs (book : Pricebook) (fields : List Field) (inputs : Table String FieldInput)
    (name : String) :
    (ofInputs book fields inputs).values.get? name =
      match (Table.indexBy (·.name.text) fields).get? name with
      | some f => some (f.tag ((inputs.get? name).getD (.given .blank)))
      | none => (inputs.get? name).map FieldInput.tag := by
  let declared : Table String Field := .indexBy (·.name.text) fields
  let kept := inputs.entries.filter fun e => !declared.contains e.1
  have distinct : ((kept.map fun e => (e.1, e.2.tag)).map Prod.fst).Nodup := by
    rw [List.map_map]
    exact (List.Sublist.map Prod.fst List.filter_sublist).nodup inputs.distinct
  -- undeclared inputs hide no declared field, since they are filtered by the declared names
  have others : Entries.get? name (kept.map fun e => (e.1, e.2.tag)) =
      if declared.contains name then none else (inputs.get? name).map FieldInput.tag := by
    rw [Entries.get?_map (fun _ v => FieldInput.tag v),
      Entries.get?_filter fun n => !declared.contains n]
    cases declared.contains name <;> simp [Table.get?]
  change ((declared.mapValues _).insertAll _).get? name = _
  rw [Table.get?_insertAll_of_nodup _ distinct, others, Table.get?_mapValues]
  change _ = match declared.get? name with
    | some f => _
    | none => _
  cases found : declared.get? name with
  | some f => simp [Table.contains, found]
  | none => simp [Table.contains, found]

/-- The names with values are those of the fields and those of the inputs. -/
theorem contains_ofInputs (book : Pricebook) {fields : List Field}
    {inputs : Table String FieldInput} {name : String} :
    (ofInputs book fields inputs).values.contains name = true ↔
      name ∈ fields.map (·.name.text) ∨ inputs.contains name = true := by
  rw [Table.contains, get?_ofInputs, ← @Table.contains_indexBy _ _ _ fun f : Field => f.name.text]
  cases found : (Table.indexBy (fun f : Field => f.name.text) fields).get? name with
  | some f => simp [Table.contains, found]
  | none => simp [Table.contains, found]

/-- Further values stand before those of the scope. -/
theorem get?_extend (s : Scope) (inputs : Table String FieldInput) (name : String) :
    (s.extend inputs).values.get? name =
      ((inputs.get? name).map FieldInput.tag).or (s.values.get? name) := by
  -- tagging keeps the keys of the inputs, which are distinct
  have distinct : ((inputs.entries.map fun e => (e.1, e.2.tag)).map Prod.fst).Nodup := by
    simpa [List.map_map, Function.comp_def] using inputs.distinct
  rw [extend, Table.get?_insertAll_of_nodup _ distinct,
    Entries.get?_map fun _ v => FieldInput.tag v]
  rfl

/-- The scope when some bodies of shared functions are open already. -/
def atDepth (s : Scope) (depth : Nat) : Scope := { s with depth := depth }

@[simp] theorem atDepth_values (s : Scope) (depth : Nat) :
    (s.atDepth depth).values = s.values := rfl

end Scope

/-- In the body of a shared function exactly its parameters have values. -/
theorem contains_bindArguments {f : SharedFunction} {args : List Float} {name : String} :
    (bindArguments f args).contains name = true ↔ name ∈ f.parameters.map (·.name.text) := by
  have given : ((f.parameters.zip args).map fun e =>
      (e.1.name.text, Tagged.number e.2)).map Prod.fst ⊆ f.parameters.map (·.name.text) := by
    intro n member
    simp only [List.map_map, List.mem_map, Function.comp_apply, Prod.exists] at member ⊢
    obtain ⟨p, x, pair, rfl⟩ := member
    exact ⟨p, (List.of_mem_zip pair).1, rfl⟩
  have missing : (f.parameters.map fun p => (p.name.text, Tagged.missing)).map Prod.fst =
      f.parameters.map (·.name.text) := by simp [List.map_map, Function.comp_def]
  rw [bindArguments, Table.contains_insertAll, Table.contains_ofList, missing]
  exact ⟨fun h => h.elim (fun member => given member) id, Or.inr⟩

end Costing.Formula

import Costing.ModuleCheck
import Costing.Proofs.Output.Dependency

/-! # References to later outputs

The outputs of an accepted module form a chain: an expression refers to outputs before its own and
to no others (`forward_references_are_refused`).

The check of references looks for such names before the expression is validated, and it passes over
some names early: those with a point that have no prefix, and those of fields.  Neither can be the
name of an output (`forwardReference?_isSome`), whatever its letters.  An output is found by its
identifier, and of several outputs with one identifier the first is found, so the check of each of
them starts at its own position or before it (`findIdx_le`). -/

namespace Costing

/-- A name spells the name of an output in any letter case, bare or behind the prefix of outputs. -/
def Output.Spelled (o : Output) (n : String) : Prop :=
  ∃ s, Text.lower s = o.name.folded ∧ (n = s ∨ n = outputPrefix ++ s)

section
variable {m : Module}

theorem plain_of_lower {s : String} {n : VariableName} (lower : Text.lower s = n.folded) :
    '.' ∉ s.toList := by
  intro point
  apply n.plain_folded
  rw [← lower]
  exact point_mem_lower point

theorem Output.Spelled.lower_eq {o : Output} {n : String} (spelled : o.Spelled n) :
    Text.lower (dropOutputPrefix n) = o.name.folded := by
  obtain ⟨s, lower, rfl | rfl⟩ := spelled
  · rw [dropOutputPrefix_of_plain (plain_of_lower lower), lower]
  · rw [dropOutputPrefix_append, lower]

/-- The spelling of an output is not taken for a property of something else. -/
theorem Output.Spelled.not_isProperty {o : Output} {n : String} (spelled : o.Spelled n) :
    (decide (0 < Formula.Token.points n) && !hasOutputPrefix n) = false := by
  obtain ⟨s, lower, rfl | rfl⟩ := spelled
  · have none : n.toList.count '.' = 0 := List.count_eq_zero.mpr (plain_of_lower lower)
    simp [Formula.Token.points, none]
  · simp [hasOutputPrefix_append]

/-- The spelling of an output is not taken for a field of its module. -/
theorem Output.Spelled.not_isField {o : Output} (declared : o ∈ m.outputs) {n : String}
    (spelled : o.Spelled n) : (m.fields.map (·.name.folded)).contains (Text.lower n) = false := by
  rw [← Bool.not_eq_true, List.contains_iff_mem, List.mem_map]
  rintro ⟨f, field, same⟩
  obtain ⟨s, lower, rfl | rfl⟩ := spelled
  · exact Module.field_ne_output field declared (same.trans lower)
  · -- behind the prefix there is a point, which the name of a field does not hold
    apply f.name.plain_folded
    rw [same]
    apply point_mem_lower
    rw [String.toList_append]
    exact List.mem_append_left _ (by decide)

theorem forwardReference?_isSome {position : Nat} {j : Fin m.outputs.length}
    (behind : position ≤ j.val) {expression n : String}
    (referenced : n ∈ referencedNames expression) (spelled : (m.outputs.get j).Spelled n) :
    (forwardReference? m.fields m.outputs position expression).isSome = true := by
  have index : outputIndex? m.outputs n = some j :=
    Module.outputIndex?_eq_some_iff.mpr spelled.lower_eq.symm
  rw [forwardReference?, List.findSome?_isSome_iff]
  refine ⟨n, referenced, ?_⟩
  simp only [spelled.not_isProperty, spelled.not_isField (List.get_mem ..), index, behind]
  rfl

/-- The first output with the identifier of another one stands before it or is the same. -/
theorem findIdx_le (i : Fin m.outputs.length) :
    m.outputs.findIdx (·.id == (m.outputs.get i).id) ≤ i.val := by
  by_contra later
  have other := List.not_of_lt_findIdx (Nat.lt_of_not_le later)
  simp at other

theorem not_isAccepted_of_forward (book : Pricebook) {position : Nat} {expression : String}
    (forward : (forwardReference? m.fields m.outputs position expression).isSome = true) :
    (validateExpressionAt m.fields m.outputs book position expression).isAccepted = false := by
  obtain ⟨found, here⟩ := Option.isSome_iff_exists.mp forward
  rw [validateExpressionAt, here]
  split <;> rfl

/-- The expression of an output that names its own output or a later one is refused. -/
theorem not_isAccepted_of_spelled (book : Pricebook) {i j : Fin m.outputs.length} (behind : i ≤ j)
    {t : Formula.Tree} (parsed : Formula.Tree.parse (m.outputs.get i).expression = .ok t)
    {n : String} (member : .name n ∈ t.nodes) (spelled : (m.outputs.get j).Spelled n) :
    (validateExpression m.fields m.outputs book (some (m.outputs.get i).id)
      (m.outputs.get i).expression).isAccepted = false := by
  have referenced : n ∈ referencedNames (m.outputs.get i).expression :=
    (mem_referencedNames parsed).mpr member
  exact not_isAccepted_of_forward book
    (forwardReference?_isSome (Nat.le_trans (findIdx_le i) behind) referenced spelled)

/-! ## The verdict on the module -/

/-- The verdict on each output is listed under its name. -/
theorem get?_validate (book : Pricebook) (i : Fin m.outputs.length) :
    (m.validate book).outputs.get? (m.outputs.get i).name.text =
      some (validateExpression m.fields m.outputs book (some (m.outputs.get i).id)
        (m.outputs.get i).expression) := by
  have distinct : ((m.outputs.map fun o => (o.name.text,
      validateExpression m.fields m.outputs book (some o.id) o.expression)).map
        Prod.fst).Nodup := by
    rw [List.map_map]
    exact VariableName.nodup_texts m.nodup_outputs
  rw [Module.validate, Table.get?_ofList_of_nodup distinct]
  exact Entries.get?_of_mem distinct (List.mem_map.mpr ⟨_, List.get_mem .., rfl⟩)

/-- A module is refused with any of its outputs. -/
theorem not_isAccepted_of_output {book : Pricebook} {name : String} {verdict : Formula.Verdict}
    (listed : (m.validate book).outputs.get? name = some verdict)
    (refused : verdict.isAccepted = false) : (m.validate book).isAccepted = false := by
  have among : verdict ∈ (m.validate book).outputs.values :=
    List.mem_map.mpr ⟨_, Entries.mem_of_get? listed, rfl⟩
  rw [ModuleVerdict.isAccepted, Bool.and_eq_false_iff, List.all_eq_false]
  exact .inr ⟨verdict, among, by simp [refused]⟩

end

/-- An output whose expression names its own output or a later one, at any depth and in any letter
case, is refused, and so is the module.  Hence in an accepted module every output refers to
outputs before it only. -/
theorem forward_references_are_refused (m : Module) (book : Pricebook) :
    (∀ (i j : Fin m.outputs.length) (t : Formula.Tree) (n : String), i ≤ j →
      Formula.Tree.parse (m.outputs.get i).expression = .ok t → .name n ∈ t.nodes →
      (m.outputs.get j).Spelled n →
        (∃ verdict, (m.validate book).outputs.get? (m.outputs.get i).name.text = some verdict ∧
          verdict.isAccepted = false) ∧ (m.validate book).isAccepted = false) ∧
    ((m.validate book).isAccepted = true → ∀ (i j : Fin m.outputs.length) (t : Formula.Tree)
      (n : String), Formula.Tree.parse (m.outputs.get i).expression = .ok t →
      .name n ∈ t.nodes → (m.outputs.get j).Spelled n → j < i) := by
  refine ⟨fun i j t n behind parsed member spelled => ?_,
    fun accepted i j t n parsed member spelled => ?_⟩
  · have refused := not_isAccepted_of_spelled book behind parsed member spelled
    have listed := get?_validate book i
    exact ⟨⟨_, listed, refused⟩, not_isAccepted_of_output listed refused⟩
  · by_contra behind
    have refused :=
      not_isAccepted_of_spelled book (Fin.not_lt.mp behind) parsed member spelled
    rw [not_isAccepted_of_output (get?_validate book i) refused] at accepted
    cases accepted

/-! Two outputs with one identifier, of which the first refers to the second. -/

def twinModule : Module :=
  { wallModule with
    outputs := [{ plainOutput ⟨"hull", by decide⟩ "max(1, out.Fee + width)" with id := "o" },
      { plainOutput ⟨"fee", by decide⟩ "width * 2" with id := "o" }]
    distinct := by decide +kernel }

/-- A reference inside a call is found in other letters than the output is declared with; in a
module that is accepted, the reference leads backwards. -/
theorem forward_references_are_refused_inside_calls :
    (twinModule.validate (.ofLists [] [] [])).isAccepted = false ∧
    (wallModule.validate (.ofLists [] [] [])).isAccepted = true ∧
    ∃ t n, Formula.Tree.parse (wallModule.outputs.get ⟨1, by decide⟩).expression = .ok t ∧
      .name n ∈ t.nodes ∧ (wallModule.outputs.get ⟨0, by decide⟩).Spelled n ∧
      (⟨0, by decide⟩ : Fin wallModule.outputs.length) < ⟨1, by decide⟩ := by
  obtain ⟨t, parsed, names⟩ : ∃ t, Formula.Tree.parse "max(1, out.Fee + width)" = .ok t ∧
      t.names.contains "out.Fee" = true := exists_ok_of_check (by decide +kernel)
  obtain ⟨t', parsed', names'⟩ : ∃ t, Formula.Tree.parse "out.surface" = .ok t ∧
      t.names.contains "out.surface" = true := exists_ok_of_check (by decide +kernel)
  have member := Formula.Tree.mem_names.mp (List.contains_iff_mem.mp names)
  have member' := Formula.Tree.mem_names.mp (List.contains_iff_mem.mp names')
  have spelled : (wallModule.outputs.get ⟨0, by decide⟩).Spelled "out.surface" :=
    ⟨"surface", by decide +kernel, .inr rfl⟩
  have accepted : (wallModule.validate (.ofLists [] [] [])).isAccepted = true := by decide +kernel
  obtain ⟨_, refused⟩ := (forward_references_are_refused twinModule (.ofLists [] [] [])).1
    ⟨0, by decide⟩ ⟨1, by decide⟩ t "out.Fee" (by decide) parsed member
    ⟨"Fee", by decide +kernel, .inr rfl⟩
  exact ⟨refused, accepted, t', "out.surface", parsed', member', spelled,
    (forward_references_are_refused wallModule (.ofLists [] [] [])).2 accepted
      ⟨1, by decide⟩ ⟨0, by decide⟩ t' "out.surface" parsed' member' spelled⟩

end Costing

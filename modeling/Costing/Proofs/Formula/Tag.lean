import Costing.Formula.Scope
import Costing.Proofs.Except

/-! # Tags of fields

How the input of a field is tagged by the type of the field.  One value counts for all types, that
of the default where the given one is blank (`Field.effective`), and all types but one have nothing
if that value is blank (`Field.isVacant_tag_given`): a truth value that is not given is false. -/

namespace Costing

/-- The input that a field has among others.  A field without one is blank. -/
def Field.inputAmong (f : Field) (inputs : Table String FieldInput) : FieldInput :=
  (inputs.get? f.name.text).getD (.given .blank)

/-- The value that counts: the default where the given one is blank. -/
def Field.effective (f : Field) (value : FieldValue) : FieldValue :=
  if value.isBlank then f.default else value

/-- There is nothing to compute with: no value, none behind a link, or no selected item. -/
def Tagged.isVacant : Tagged → Bool
  | .missing | .broken _ _ | .selection _ none => true
  | .number _ | .text _ | .selection _ (some _) => false

namespace Formula

/-! ## Selections -/

theorem toTagged_ne_selection (value : FieldValue) (kind : CatalogKind) (key : Option String) :
    value.toTagged ≠ .selection kind key := by
  cases value with
  | blank => simp [FieldValue.toTagged]
  | flag b => simp [FieldValue.toTagged]
  | number x => simp [FieldValue.toTagged]
  | text t =>
    simp only [FieldValue.toTagged]
    split <;> simp

/-- Only fields that select catalog items are tagged with selections. -/
theorem catalogKind_of_tag {field : Field} {input : FieldInput} {kind : CatalogKind}
    {key : Option String} (selection : field.tag input = .selection kind key) :
    field.catalogKind? = some kind := by
  cases input with
  | broken reason own => simp [Field.tag] at selection
  | given value =>
    simp only [Field.tag] at selection
    generalize (if value.isBlank = true then field.default else value) = effective at selection
    unfold Field.catalogKind?
    cases type : field.kind <;> simp only [type] at selection ⊢
    case material => exact congrArg some (Tagged.selection.inj selection).1
    case labor => exact congrArg some (Tagged.selection.inj selection).1
    case boolean => simp at selection
    case text => split at selection <;> simp at selection
    all_goals
      split at selection
      · simp at selection
      · exact absurd selection (toTagged_ne_selection _ _ _)

/-- A field that selects catalog items is tagged with a selection from its half of the catalog,
unless its link is broken. -/
theorem tag_of_catalogKind {field : Field} {kind : CatalogKind}
    (selects : field.catalogKind? = some kind) (input : FieldInput) :
    (∃ key, field.tag input = .selection kind key) ∨
      ∃ reason own, field.tag input = .broken reason own := by
  cases input with
  | broken reason own => exact Or.inr ⟨reason, own, rfl⟩
  | given value =>
    left
    unfold Field.catalogKind? at selects
    cases type : field.kind <;> simp only [type, reduceCtorEq, Option.some.injEq] at selects
    all_goals
      subst selects
      simp only [Field.tag, type]
      exact ⟨_, rfl⟩

end Formula

/-! ## Values that count -/

namespace Field

variable {f g : Field} {v : FieldValue}

@[simp] theorem effective_of_filled (filled : v.isBlank = false) : f.effective v = v := by
  simp [effective, filled]

@[simp] theorem effective_of_blank (blank : v.isBlank = true) : f.effective v = f.default := by
  simp [effective, blank]

theorem tag_of_blank (blank : v.isBlank = true) : f.tag (.given v) = f.tag (.given f.default) := by
  simp only [tag, blank, if_true, ite_self]

/-- The type of a field alone decides how a value that is not blank is tagged. -/
theorem tag_of_filled (kind : f.kind = g.kind) (filled : v.isBlank = false) :
    f.tag (.given v) = g.tag (.given v) := by
  simp only [tag, filled, kind, Bool.false_eq_true, if_false]

theorem tag_text (kind : f.kind = .text) (v : FieldValue) : f.tag (.given v) =
    if (f.effective v).isBlank then .missing else .text (f.effective v).plain := by
  simp only [tag, kind]
  rfl

theorem tag_dropdown (kind : f.kind = .dropdown) (v : FieldValue) : f.tag (.given v) =
    if (f.effective v).isBlank then .missing else (f.effective v).toTagged := by
  simp only [tag, kind]
  rfl

end Field

/-- Numbers and dropdowns are read; there is nothing to read in a blank alone. -/
theorem FieldValue.isVacant_read (v : FieldValue) :
    (if v.isBlank then Tagged.missing else v.toTagged).isVacant = v.isBlank := by
  cases v with
  | blank | flag b | number x => rfl
  | text s =>
    cases blank : Text.isBlankText s with
    | true => simp [isBlank, blank, Tagged.isVacant]
    | false =>
      simp only [isBlank, blank, toTagged, Bool.false_eq_true, if_false]
      cases Decimal.read? (Text.strip s) <;> rfl

/-- A field has nothing if the value that counts is blank, but for truth values. -/
theorem Field.isVacant_tag_given (f : Field) (v : FieldValue) :
    (f.tag (.given v)).isVacant = (decide (f.kind ≠ .boolean) && (f.effective v).isBlank) := by
  simp only [tag]
  change _ = (_ && (if v.isBlank = true then f.default else v).isBlank)
  generalize (if v.isBlank = true then f.default else v) = effective
  cases kind : f.kind with
  | number | dropdown => simpa using effective.isVacant_read
  | boolean => rfl
  | text | material | labor => cases effective.isBlank <;> rfl

end Costing

import Costing.Proofs.Cost
import Costing.Proofs.Formula.Tag
import Costing.Proofs.Output.Dependency

/-! # Required fields

A module has no cost unless its required fields have values, whether or not an expression reads
them.  Blanks are looked for twice: in the input and default of the field before the formula is
evaluated (`Field.requirement?`), and again in the value that the field is tagged with.

The two agree on inputs, on links that are broken and on defaults that are empty.  They differ on
one kind of default: a text of blanks that is not empty satisfies the requirement and is missing
all the same.  `Field.BlanksSatisfy` names this case, and `Field.isVacant_tag_iff` shows that it is
the only one. -/

namespace Costing

/-! ## The requirement of a field -/

/-- The default is a text with blanks only, of one at least. -/
def Field.DefaultsToBlanks (f : Field) : Prop :=
  ∃ s, f.default = .text s ∧ s ≠ "" ∧ Text.isBlankText s = true

/-- A field without a value meets the requirement because of the blanks in its default. -/
structure Field.BlanksSatisfy (f : Field) (input : FieldInput) : Prop where
  noFlag : f.kind ≠ .boolean
  blank : ∃ value, input = .given value ∧ value.isBlank = true
  default : f.DefaultsToBlanks

namespace Field

variable {f : Field} {input : FieldInput}

/-- A blank default that counts as one is a text of blanks. -/
theorem hasDefault_iff_of_blank (blank : f.default.isBlank = true) :
    f.hasDefault = true ↔ f.DefaultsToBlanks := by
  unfold hasDefault DefaultsToBlanks
  cases default : f.default with
  | blank => simp
  | flag b => rw [default] at blank; cases blank
  | number x => rw [default] at blank; cases blank
  | text s =>
    rw [default] at blank
    have blanks : Text.isBlankText s = true := blank
    simp [blanks]

theorem isBlank_of_defaultsToBlanks (defaults : f.DefaultsToBlanks) : f.default.isBlank = true := by
  obtain ⟨s, same, -, blanks⟩ := defaults
  rw [same]
  exact blanks

/-- A requirement is met by an input that is not blank, or by a default. -/
theorem requirement?_eq_none_iff : f.requirement? input = none ↔
    ∃ value, input = .given value ∧ (value.isBlank = true → f.hasDefault = true) := by
  cases input with
  | broken reason fallback => simp [requirement?]
  | given value => simp [requirement?]

/-- Where the requirement is met, nothing but blanks in the default leaves a field without a value
to compute with. -/
theorem isVacant_tag_iff (met : f.requirement? input = none) :
    (f.tag input).isVacant = true ↔ f.BlanksSatisfy input := by
  obtain ⟨value, rfl, hasDefault⟩ := requirement?_eq_none_iff.mp met
  rw [isVacant_tag_given, Bool.and_eq_true, decide_eq_true_eq]
  constructor
  · rintro ⟨noFlag, vacant⟩
    cases blank : value.isBlank with
    | false =>
      -- the value itself counts, and it is not blank
      simp [blank] at vacant
    | true =>
      rw [effective_of_blank blank] at vacant
      exact ⟨noFlag, ⟨value, rfl, blank⟩, (hasDefault_iff_of_blank vacant).mp (hasDefault blank)⟩
  · rintro ⟨noFlag, ⟨_, same, blank⟩, defaults⟩
    cases same
    rw [effective_of_blank blank]
    exact ⟨noFlag, isBlank_of_defaultsToBlanks defaults⟩

end Field

/-! ## The requirements of a module -/

section
variable {m : Module} {book : Pricebook} {inputs : Table String FieldInput} {id : String}
  {c : InstanceCost}

theorem Module.unmet?_eq_none_iff : m.unmet? inputs = none ↔
    ∀ f ∈ m.fields, f.required = true → f.requirement? (f.inputAmong inputs) = none := by
  rw [unmet?, List.findSome?_eq_none_iff]
  simp only [List.mem_filter, and_imp]
  rfl

theorem Module.exists_of_unmet? {cause : Cause} (unmet : m.unmet? inputs = some cause) :
    ∃ f ∈ m.fields, f.required = true ∧ f.requirement? (f.inputAmong inputs) = some cause := by
  obtain ⟨f, member, failed⟩ := List.exists_of_findSome?_eq_some unmet
  obtain ⟨field, required⟩ := List.mem_filter.mp member
  exact ⟨f, field, required, failed⟩

/-- An unmet requirement is the fault of the cost, whatever the formula is. -/
theorem Module.fault_of_unmet? (run : m.cost book inputs id = .ok c) {cause : Cause}
    (unmet : m.unmet? inputs = some cause) :
    c.cost = none ∧ c.fault = some ({ cause := cause } : Fault).report := by
  obtain ⟨results, outcome, -, evaluated, rfl⟩ := Module.cost_eq_ok_iff.mp run
  rw [evaluateFormula, unmet] at evaluated
  cases evaluated
  exact ⟨rfl, rfl⟩

/-- A cost means that all requirements are met. -/
theorem Module.unmet?_of_costed (run : m.cost book inputs id = .ok c)
    (costed : c.cost.isSome = true) : m.unmet? inputs = none := by
  cases unmet : m.unmet? inputs with
  | none => rfl
  | some cause =>
    rw [(Module.fault_of_unmet? run unmet).1] at costed
    cases costed

end

/-- A module with a cost has a value to compute with in each required field, but for those that
meet the requirement with the blanks in their defaults; these have none.  A required field without a
value leaves the module without a cost, and the fault is what a required field lacks. -/
theorem cost_needs_required_values (m : Module) (book : Pricebook)
    (inputs : Table String FieldInput) (id : String) (c : InstanceCost)
    (run : m.cost book inputs id = .ok c) :
    (c.cost.isSome = true → ∀ f ∈ m.fields, f.required = true →
      ((f.tag (f.inputAmong inputs)).isVacant = true ↔ f.BlanksSatisfy (f.inputAmong inputs))) ∧
    (∀ f ∈ m.fields, f.required = true → (f.tag (f.inputAmong inputs)).isVacant = true →
      ¬f.BlanksSatisfy (f.inputAmong inputs) →
        c.cost = none ∧ ∃ g ∈ m.fields, g.required = true ∧
          ∃ cause, g.requirement? (g.inputAmong inputs) = some cause ∧
            c.fault = some ({ cause := cause } : Fault).report) := by
  refine ⟨fun costed f field required => ?_, fun f field required vacant unsatisfied => ?_⟩
  · exact Field.isVacant_tag_iff
      (Module.unmet?_eq_none_iff.mp (Module.unmet?_of_costed run costed) f field required)
  · cases unmet : m.unmet? inputs with
    | none =>
      have met := Module.unmet?_eq_none_iff.mp unmet f field required
      exact absurd ((Field.isVacant_tag_iff met).mp vacant) unsatisfied
    | some cause =>
      obtain ⟨g, field', required', failed⟩ := Module.exists_of_unmet? unmet
      obtain ⟨costless, fault⟩ := Module.fault_of_unmet? run unmet
      exact ⟨costless, g, field', required', cause, failed, fault⟩

/-! A required height that the formula does not read. -/

def requiredHeight (default : FieldValue) : Field :=
  { numberField ⟨"height", by decide⟩ with required := true, default := default }

def unreadModule (default : FieldValue) : Module where
  id := "m"
  name := "Wall"
  description := none
  category := none
  fields := [requiredHeight default]
  outputs := []
  formula := "1"
  distinct := List.nodup_singleton _

/-- With a number for its default, the height has a value. -/
theorem cost_needs_required_values_of_number :
    ∃ c, (unreadModule (.number 2)).cost (.ofLists [] [] []) .empty "a" = .ok c ∧
      c.cost.isSome = true ∧
      ¬((requiredHeight (.number 2)).tag
        ((requiredHeight (.number 2)).inputAmong .empty)).isVacant = true := by
  obtain ⟨c, run, costed⟩ : ∃ c,
      (unreadModule (.number 2)).cost (.ofLists [] [] []) .empty "a" = .ok c ∧
        c.cost.isSome = true :=
    exists_ok_of_check (by decide +kernel)
  have values := (cost_needs_required_values (unreadModule (.number 2)) _ _ _ c run).1 costed
  refine ⟨c, run, costed, fun vacant => ?_⟩
  obtain ⟨-, -, s, default, -⟩ := (values _ (.head _) rfl).mp vacant
  cases default

/-- Blanks in the default pass for a value, and the module has a cost without one. -/
theorem blanks_satisfy_requirement :
    requiredHeight (.text "  ") ∈ (unreadModule (.text "  ")).fields ∧
    (requiredHeight (.text "  ")).required = true ∧
    (requiredHeight (.text "  ")).tag ((requiredHeight (.text "  ")).inputAmong .empty) = .missing ∧
    ∃ c, (unreadModule (.text "  ")).cost (.ofLists [] [] []) .empty "a" = .ok c ∧
      c.cost.isSome = true :=
  ⟨.head _, rfl, rfl, exists_ok_of_check (by decide +kernel)⟩

end Costing

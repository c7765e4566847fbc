import Costing.Proofs.Formula.Dependence
import Costing.Proofs.Formula.Scope

/-! # Text in formulas

A name without a number takes the number from every formula that it stands in, wherever it stands
(`ne_value_of_unresolved`).  The name of a text field never has a number.  The name of a dropdown
has one exactly if its text can be read as a number: whether the options of the dropdown are meant
as numbers or as words makes no difference. -/

namespace Costing.Formula

/-- A formula has no number if a name in it has none. -/
theorem ne_value_of_unresolved {s : Scope} {formula : String} {t : Tree} {n : String}
    (parsed : Tree.parse formula = .ok t) (reference : .name n ∈ t.nodes)
    (unresolved : ∀ y, s.resolve n ≠ .ok y) (x : Float) : evaluate s formula ≠ .value x := by
  intro value
  have number : (evaluate s formula).number? = some x := by rw [value]; rfl
  obtain ⟨t', parsed', resolved⟩ := resolve_of_number? number
  obtain rfl : t = t' := Except.ok.inj (parsed.symm.trans parsed')
  obtain ⟨y, here⟩ := resolved n reference
  exact unresolved y here

namespace Scope

/-! ## Fields in scopes -/

/-- The scope of inputs under the declarations of fields, with layers of further values before them
and some bodies of shared functions open. -/
def layered (book : Pricebook) (fields : List Field) (inputs : Table String FieldInput)
    (further : List (Table String FieldInput)) (depth : Nat) : Scope :=
  (further.foldl extend (ofInputs book fields inputs)).atDepth depth

/-- The name of a field stands for the input of the field. -/
def Shows (s : Scope) (f : Field) (input : FieldInput) : Prop :=
  s.values.get? f.name.text = some (f.tag input)

section
variable {s : Scope} {f : Field} {input : FieldInput}

theorem shows_ofInputs {book : Pricebook} {fields : List Field} {inputs : Table String FieldInput}
    (declared : (Table.indexBy (·.name.text) fields).get? f.name.text = some f) :
    (ofInputs book fields inputs).Shows f (f.inputAmong inputs) := by
  rw [Shows, get?_ofInputs, declared]
  rfl

theorem Shows.extend (shown : s.Shows f input) {extra : Table String FieldInput}
    (other : extra.contains f.name.text = false) : (s.extend extra).Shows f input := by
  have absent : extra.get? f.name.text = none := by
    simpa [Table.contains] using other
  rw [Shows, get?_extend, absent]
  exact shown

theorem Shows.extendAll (shown : s.Shows f input) {further : List (Table String FieldInput)}
    (others : ∀ extra ∈ further, extra.contains f.name.text = false) :
    (further.foldl Scope.extend s).Shows f input := by
  induction further generalizing s with
  | nil => exact shown
  | cons extra further ih =>
    obtain ⟨first, rest⟩ := List.forall_mem_cons.mp others
    exact ih (shown.extend first) rest

/-- Values under other names do not hide a declared field. -/
theorem shows_layered {book : Pricebook} {fields : List Field} {inputs : Table String FieldInput}
    {further : List (Table String FieldInput)} {depth : Nat}
    (declared : (Table.indexBy (·.name.text) fields).get? f.name.text = some f)
    (others : ∀ extra ∈ further, extra.contains f.name.text = false) :
    (layered book fields inputs further depth).Shows f (f.inputAmong inputs) :=
  (shows_ofInputs declared).extendAll others

/-! ## The numbers of text fields and dropdowns -/

theorem Shows.resolve (shown : s.Shows f input) :
    s.resolve f.name.text = s.numeric f.name.text (f.tag input) := by
  rw [Scope.resolve, shown]

/-- No input gives a text field a number. -/
theorem Shows.resolve_ne_of_text (shown : s.Shows f input) (kind : f.kind = .text) (x : Float) :
    s.resolve f.name.text ≠ .ok x := by
  rw [shown.resolve]
  cases input with
  | broken reason fallback => nofun
  | given value =>
    -- missing or a text, and neither is a number
    rw [Field.tag_text kind]
    split <;> nofun

/-- A dropdown with a text has the number that the text reads as, if it does. -/
theorem Shows.resolve_dropdown {value : FieldValue} {text : String}
    (shown : s.Shows f (.given value)) (kind : f.kind = .dropdown)
    (holds : f.effective value = .text text) (filled : Text.isBlankText text = false) (x : Float) :
    s.resolve f.name.text = .ok x ↔ Decimal.read? (Text.strip text) = some x := by
  have tagged : f.tag (.given value) = (FieldValue.text text).toTagged := by
    rw [Field.tag_dropdown kind, holds]
    exact if_neg (by simp [FieldValue.isBlank, filled])
  rw [shown.resolve, tagged, FieldValue.toTagged]
  cases Decimal.read? (Text.strip text) with
  | none => simp [numeric]
  | some y => simp [numeric]

end

end Scope

/-- A formula that refers to a text field has no number, whatever the field holds.  One that refers
to a dropdown with a text has none unless the text can be read as a number; then that is the number
of the dropdown. -/
theorem text_has_no_number (book : Pricebook) (fields : List Field)
    (inputs : Table String FieldInput) (further : List (Table String FieldInput)) (depth : Nat)
    (f : Field) (declared : (Table.indexBy (·.name.text) fields).get? f.name.text = some f)
    (others : ∀ extra ∈ further, extra.contains f.name.text = false) (formula : String) (t : Tree)
    (parsed : Tree.parse formula = .ok t) (reference : .name f.name.text ∈ t.nodes) :
    (f.kind = .text →
      ∀ x, evaluate (.layered book fields inputs further depth) formula ≠ .value x) ∧
    (f.kind = .dropdown → ∀ value text, f.inputAmong inputs = .given value →
      f.effective value = .text text → Text.isBlankText text = false →
        (Decimal.read? (Text.strip text) = none →
          ∀ x, evaluate (.layered book fields inputs further depth) formula ≠ .value x) ∧
        ∀ x, (Scope.layered book fields inputs further depth).resolve f.name.text = .ok x ↔
          Decimal.read? (Text.strip text) = some x) := by
  have shown : (Scope.layered book fields inputs further depth).Shows f (f.inputAmong inputs) :=
    Scope.shows_layered declared others
  refine ⟨fun kind => ?_, fun kind value text given holds filled => ?_⟩
  · exact ne_value_of_unresolved parsed reference (shown.resolve_ne_of_text kind)
  · rw [given] at shown
    have number := shown.resolve_dropdown kind holds filled
    refine ⟨fun unreadable => ne_value_of_unresolved parsed reference fun x resolved => ?_, number⟩
    rw [number, unreadable] at resolved
    cases resolved

/-! A grade that is chosen among words. -/

def gradeField : Field :=
  ⟨"grade", "grade", ⟨"grade", by decide⟩, .dropdown, false, .blank, ["2", "two"], .string, none,
    none, none, none⟩

def gradeInputs (grade : String) : Table String FieldInput :=
  .ofList [("grade", .given (.text grade))]

def gradeScope (grade : String) : Scope :=
  .layered (.ofLists [] [] []) [gradeField] (gradeInputs grade) [] 0

theorem exists_reference_gradeField :
    ∃ t, Tree.parse "grade * 3" = .ok t ∧ .name "grade" ∈ t.nodes := by
  obtain ⟨t, parsed, named⟩ : ∃ t, Tree.parse "grade * 3" = .ok t ∧
      decide ("grade" ∈ t.names) = true := exists_ok_of_check (by decide +kernel)
  exact ⟨t, parsed, Tree.mem_names.mp (of_decide_eq_true named)⟩

/-- A word leaves the product without a number. -/
theorem text_has_no_number_of_word :
    ∃ t, Tree.parse "grade * 3" = .ok t ∧ .name "grade" ∈ t.nodes ∧
      ∀ x, evaluate (gradeScope "two") "grade * 3" ≠ .value x := by
  obtain ⟨t, parsed, reference⟩ := exists_reference_gradeField
  obtain ⟨numberless, -⟩ := (text_has_no_number _ [gradeField] (gradeInputs "two") [] 0 gradeField
    rfl nofun "grade * 3" t parsed reference).2 rfl (.text "two") "two" rfl rfl (by decide +kernel)
  exact ⟨t, parsed, reference, numberless (by decide +kernel)⟩

theorem exists_value_of_number? {outcome : Outcome} {check : Float → Bool}
    (checked : outcome.number?.map check = some true) :
    ∃ x, outcome = .value x ∧ check x = true := by
  cases outcome with
  | value x => exact ⟨x, rfl, Option.some.inj checked⟩
  | fault f => cases checked
  | crash => cases checked

/-- A word that reads as a number is multiplied, although the options are words. -/
theorem digits_are_multiplied :
    gradeField.kind = .dropdown ∧ gradeField.dropdownMode = .string ∧
    gradeField.effective (.text "2") = .text "2" ∧
    (∃ t, Tree.parse "grade * 3" = .ok t ∧ .name "grade" ∈ t.nodes) ∧
    ∃ x, evaluate (gradeScope "2") "grade * 3" = .value x ∧ (x == 6) = true :=
  ⟨rfl, rfl, rfl, exists_reference_gradeField, exists_value_of_number? (by decide +kernel)⟩

end Costing.Formula

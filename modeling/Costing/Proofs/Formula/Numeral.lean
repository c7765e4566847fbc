import Costing.Decimal.Reading
import Costing.Formula.Token
import Costing.Proofs.Except

/-! # Number tokens hold numbers

The tokenizer and `Decimal.read?` read numbers with different functions.  They agree on what
the tokenizer takes: `spanMantissa_shape` and `spanExponent_shape` say how the characters of a
number token are built, `Decimal.spanDigits_append` reads one run of digits, and
`Decimal.isSome_read?` puts them together. -/

namespace Costing

/-- No script's digits are blank characters. -/
theorem Text.isBlank_of_isDecimalDigit {c : Char} (digit : isDecimalDigit c = true) :
    isBlank c = false := by
  -- each script has ten digits in a row from its zero on, and no blank range meets them
  have apart : ∀ z ∈ decimalZeros, ∀ r ∈ blankRanges, z + 9 < r.1 ∨ r.2 < z := by decide
  rw [isDecimalDigit, decimalDigit?, Option.isSome_map, List.find?_isSome] at digit
  obtain ⟨z, zero, within⟩ := digit
  simp only [Bool.and_eq_true, decide_eq_true_eq] at within
  rw [← Bool.not_eq_true, isBlank, Ranges.contains_iff]
  rintro ⟨r, blank, low, high⟩
  have := apart z zero r blank
  omega

/-! ## The shape of a number token -/

namespace Formula

/-- All characters are decimal digits. -/
def Digits (cs : List Char) : Prop := ∀ c ∈ cs, Text.isDecimalDigit c = true

theorem digits_spanDigits (cs : List Char) : Digits (spanDigits cs).1 :=
  List.all_eq_true.mp List.all_takeWhile

/-- An exponent, as the tokenizer takes it: none at all, or one with digits. -/
inductive ExponentShape : List Char → Prop where
  | none : ExponentShape []
  | some {mark : Char} {sign digits : List Char} (marked : mark = 'e' ∨ mark = 'E')
      (signed : sign = [] ∨ sign = ['+'] ∨ sign = ['-'])
      (nonempty : digits ≠ []) (all : Digits digits) : ExponentShape (mark :: sign ++ digits)

theorem spanSign_shape (cs : List Char) :
    (spanSign cs).1 = [] ∨ (spanSign cs).1 = ['+'] ∨ (spanSign cs).1 = ['-'] := by
  unfold spanSign
  split
  · exact .inl rfl
  · split
    · next sign =>
      obtain rfl | rfl := sign
      · exact .inr (.inl rfl)
      · exact .inr (.inr rfl)
    · exact .inl rfl

theorem spanExponent_shape (cs : List Char) : ExponentShape (spanExponent cs).1 := by
  unfold spanExponent
  split
  · exact .none
  · next c cs =>
    split
    · next marked =>
      dsimp only
      split
      · exact .none
      · next nonempty => exact .some marked (spanSign_shape cs) nonempty (digits_spanDigits _)
    · exact .none

/-- Digits with an optional point, at least one of them. -/
inductive MantissaShape : List Char → Prop where
  | whole {digits : List Char} (nonempty : digits ≠ []) (all : Digits digits) :
      MantissaShape digits
  | pointed {digits fraction : List Char} (nonempty : ¬(digits = [] ∧ fraction = []))
      (all : Digits digits) (behind : Digits fraction) :
      MantissaShape (digits ++ '.' :: fraction)

theorem spanMantissa_shape {cs : List Char} (taken : (spanMantissa cs).1 ≠ []) :
    MantissaShape (spanMantissa cs).1 := by
  revert taken
  unfold spanMantissa
  dsimp only
  split
  · next rest =>
    split
    · exact fun taken => absurd rfl taken
    · next nonempty =>
      exact fun _ => .pointed nonempty (digits_spanDigits _) (digits_spanDigits _)
  · exact fun taken => .whole taken (digits_spanDigits _)

end Formula

/-! ## Reading it -/

namespace Decimal

open Formula (Digits ExponentShape MantissaShape)

/-- A run of digits is read to its end. -/
theorem spanDigits_append {digits rest : List Char} (all : Digits digits)
    (stop : ∀ c, rest.head? = some c → Text.isDecimalDigit c = false) :
    ∃ values, spanDigits (digits ++ rest) = (values, rest) ∧ (values = [] ↔ digits = []) := by
  induction digits with
  | nil =>
    cases rest with
    | nil => exact ⟨[], rfl, iff_of_true rfl rfl⟩
    | cons c rest =>
      have noDigit : Text.decimalDigit? c = none := by
        simpa [Text.isDecimalDigit] using stop c rfl
      exact ⟨[], by simp [spanDigits, noDigit], iff_of_true rfl rfl⟩
  | cons c digits ih =>
    obtain ⟨values, read, _⟩ := ih fun c taken => all c (.tail _ taken)
    obtain ⟨d, digit⟩ := Option.isSome_iff_exists.mp (all c (.head _))
    exact ⟨d :: values, by simp [spanDigits, digit, read], by simp⟩

theorem isSome_exponent? {cs : List Char} (shape : ExponentShape cs) :
    (exponent? cs).isSome = true := by
  cases shape with
  | none => rfl
  | @some mark sign digits marked signed nonempty all =>
    obtain ⟨values, read, empty⟩ := @spanDigits_append digits [] all (by simp)
    rw [List.append_nil] at read
    obtain ⟨negative, split⟩ : ∃ negative, spanSign (sign ++ digits) = (negative, digits) := by
      obtain rfl | rfl | rfl := signed
      · cases digits with
        | nil => exact absurd rfl nonempty
        | cons c digits =>
          have digit := all c (.head _)
          -- the first digit is not taken for a sign
          have minus : c ≠ '-' := fun same => absurd (same ▸ digit) (by decide)
          have plus : c ≠ '+' := fun same => absurd (same ▸ digit) (by decide)
          exact ⟨false, by simp [spanSign, minus, plus]⟩
      · exact ⟨false, rfl⟩
      · exact ⟨true, rfl⟩
    obtain ⟨v, values, rfl⟩ := List.exists_cons_of_ne_nil (mt empty.mp nonempty)
    simp [exponent?, marked, split, read]

/-- An exponent starts with neither a digit nor a point. -/
theorem head?_of_exponent {cs : List Char} (shape : ExponentShape cs) :
    ∀ c, cs.head? = some c → Text.isDecimalDigit c = false ∧ c ≠ '.' := by
  intro c first
  cases shape with
  | none => simp at first
  | some marked signed nonempty all =>
    simp only [List.cons_append, List.head?_cons, Option.some.injEq] at first
    subst first
    obtain rfl | rfl := marked <;> decide

theorem isSome_unsigned? {mantissa exponent : List Char} (shape : MantissaShape mantissa)
    (tail : ExponentShape exponent) : (unsigned? (mantissa ++ exponent)).isSome = true := by
  have stop := head?_of_exponent tail
  have scaled := isSome_exponent? tail
  cases shape with
  | whole nonempty all =>
    obtain ⟨values, read, empty⟩ := spanDigits_append all fun c first => (stop c first).1
    -- without a point there is no fraction: the exponent starts with its mark
    have noFraction : spanFraction exponent = ([], exponent) := by
      unfold spanFraction
      split
      · exact absurd rfl (stop _ rfl).2
      · rfl
    simp [unsigned?, read, noFraction, mt empty.mp nonempty, scaled]
  | @pointed digits fraction nonempty all behind =>
    obtain ⟨whole, readWhole, emptyWhole⟩ :=
      @spanDigits_append digits ('.' :: fraction ++ exponent) all (by simp; decide)
    obtain ⟨parts, readParts, emptyParts⟩ :=
      spanDigits_append behind fun c first => (stop c first).1
    have found : ¬(whole = [] ∧ parts = []) := by rwa [emptyWhole, emptyParts]
    rw [List.append_assoc, unsigned?, readWhole]
    simp [spanFraction, readParts, found, scaled]

/-! Neither grouping nor padding occurs in a number token, and no sign stands first. -/

/-- The characters of number tokens. -/
def IsNumeral (c : Char) : Prop :=
  Text.isDecimalDigit c = true ∨ c ∈ ['.', 'e', 'E', '+', '-']

theorem isNumeral_of_exponent {cs : List Char} (shape : ExponentShape cs) :
    ∀ c ∈ cs, IsNumeral c := by
  intro c member
  cases shape with
  | none => cases member
  | @some mark sign digits marked signed nonempty all =>
    rw [List.cons_append, List.mem_cons, List.mem_append] at member
    obtain rfl | inSign | inDigits := member
    · obtain rfl | rfl := marked <;> exact .inr (by decide)
    · obtain rfl | rfl | rfl := signed
      · cases inSign
      · rw [List.mem_singleton.mp inSign]
        exact .inr (by decide)
      · rw [List.mem_singleton.mp inSign]
        exact .inr (by decide)
    · exact .inl (all c inDigits)

theorem isNumeral_of_mantissa {cs : List Char} (shape : MantissaShape cs) :
    ∀ c ∈ cs, IsNumeral c := by
  intro c member
  cases shape with
  | whole nonempty all => exact .inl (all c member)
  | pointed nonempty all behind =>
    rw [List.mem_append, List.mem_cons] at member
    obtain before | rfl | after := member
    · exact .inl (all c before)
    · exact .inr (by decide)
    · exact .inl (behind c after)

theorem ungroup?_of_numeral {cs : List Char} (numeral : ∀ c ∈ cs, IsNumeral c) :
    ∀ afterDigit, ungroup? afterDigit cs = some cs := by
  induction cs with
  | nil => intro afterDigit; rfl
  | cons c cs ih =>
    intro afterDigit
    have ungrouped : c ≠ '_' := by
      rintro rfl
      exact absurd (numeral '_' (.head _)) (by simp [IsNumeral]; decide)
    have rest := ih (fun d member => numeral d (.tail _ member)) (Text.isDecimalDigit c)
    simp [ungroup?, rest]

theorem isPadding_of_numeral {c : Char} (numeral : IsNumeral c) : isPadding c = false := by
  obtain digit | mark := numeral
  · rw [isPadding, Text.isBlank_of_isDecimalDigit digit, Bool.false_and]
  · simp only [List.mem_cons, List.not_mem_nil, or_false] at mark
    obtain rfl | rfl | rfl | rfl | rfl := mark <;> decide

/-- Characters of which none is padding are left as they are. -/
theorem unpad_of_numeral {cs : List Char} (numeral : ∀ c ∈ cs, IsNumeral c) : unpad cs = cs := by
  have kept : ∀ ds : List Char, (∀ c ∈ ds, IsNumeral c) → ds.dropWhile isPadding = ds := by
    intro ds all
    cases ds with
    | nil => rfl
    | cons c ds => simp [isPadding_of_numeral (all c (.head _))]
  rw [unpad, kept cs numeral, kept cs.reverse (by simpa using numeral), List.reverse_reverse]

theorem head_of_mantissa {cs : List Char} (shape : MantissaShape cs) :
    ∃ c rest, cs = c :: rest ∧ (Text.isDecimalDigit c = true ∨ c = '.') := by
  cases shape with
  | whole nonempty all =>
    obtain ⟨c, rest, rfl⟩ := List.exists_cons_of_ne_nil nonempty
    exact ⟨c, rest, rfl, .inl (all c (.head _))⟩
  | @pointed digits fraction nonempty all behind =>
    cases digits with
    | nil => exact ⟨'.', fraction, rfl, .inr rfl⟩
    | cons c digits => exact ⟨c, _, rfl, .inl (all c (.head _))⟩

theorem spanSign_of_mantissa {mantissa : List Char} (shape : MantissaShape mantissa)
    (rest : List Char) : spanSign (mantissa ++ rest) = (false, mantissa ++ rest) := by
  obtain ⟨c, cs, rfl, first⟩ := head_of_mantissa shape
  have minus : c ≠ '-' := by
    rintro rfl
    exact absurd first (by decide)
  have plus : c ≠ '+' := by
    rintro rfl
    exact absurd first (by decide)
  simp [spanSign, minus, plus]

theorem isSome_read? {mantissa exponent : List Char} (shape : MantissaShape mantissa)
    (tail : ExponentShape exponent) :
    (read? (String.ofList (mantissa ++ exponent))).isSome = true := by
  have numeral : ∀ c ∈ mantissa ++ exponent, IsNumeral c := by
    intro c member
    obtain before | after := List.mem_append.mp member
    · exact isNumeral_of_mantissa shape c before
    · exact isNumeral_of_exponent tail c after
  -- nothing is stripped or ungrouped, so the mantissa and exponent are read as they stand
  have found := isSome_unsigned? shape tail
  rw [read?, String.toList_ofList, unpad_of_numeral numeral, ungroup?_of_numeral numeral]
  simp [signed?, spanSign_of_mantissa shape, found]

end Decimal

end Costing

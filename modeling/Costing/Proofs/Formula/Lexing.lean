import Costing.Proofs.Formula.Numeral

/-! # Texts and their tokens

`Token.Reads` relates a text to the tokens it consists of, one lexeme after the other; by
`Token.ofChars_eq_ok_iff` it is what the tokenizer computes.  A lexeme is as long as it can be, so
the characters behind a token decide where it ends:

* in front of a blank character, a parenthesis or a comma it ends whatever it is
  (`Token.Reads.append`);
* a token of a text is read as itself when it stands alone (`Token.Reads.text_of_mem`). -/

namespace Costing.Formula

/-! ## Kinds of characters -/

/-- The code points of the characters of names. -/
theorem toNat_of_isNameChar {c : Char} (char : isNameChar c = true) :
    65 ≤ c.toNat ∧ c.toNat ≤ 90 ∨ 97 ≤ c.toNat ∧ c.toNat ≤ 122 ∨
      48 ≤ c.toNat ∧ c.toNat ≤ 57 ∨ c.toNat = 95 := by
  unfold isNameChar Char.isAlphanum Char.isAlpha Char.isUpper Char.isLower Char.isDigit at char
  simp only [Bool.or_eq_true, Bool.and_eq_true, decide_eq_true_eq, beq_iff_eq,
    UInt32.le_iff_toNat_le, ge_iff_le] at char
  change (((65 ≤ c.toNat ∧ c.toNat ≤ 90) ∨ (97 ≤ c.toNat ∧ c.toNat ≤ 122)) ∨
    (48 ≤ c.toNat ∧ c.toNat ≤ 57)) ∨ c = '_' at char
  obtain ((upper | lower) | digit) | rfl := char
  · exact .inl upper
  · exact .inr (.inl lower)
  · exact .inr (.inr (.inl digit))
  · exact .inr (.inr (.inr rfl))

theorem toNat_of_isNameStart {c : Char} (starts : isNameStart c = true) :
    65 ≤ c.toNat ∧ c.toNat ≤ 90 ∨ 97 ≤ c.toNat ∧ c.toNat ≤ 122 ∨ c.toNat = 95 := by
  unfold isNameStart Char.isAlpha Char.isUpper Char.isLower at starts
  simp only [Bool.or_eq_true, Bool.and_eq_true, decide_eq_true_eq, beq_iff_eq,
    UInt32.le_iff_toNat_le, ge_iff_le] at starts
  change ((65 ≤ c.toNat ∧ c.toNat ≤ 90) ∨ (97 ≤ c.toNat ∧ c.toNat ≤ 122)) ∨ c = '_' at starts
  obtain (upper | lower) | rfl := starts
  · exact .inl upper
  · exact .inr (.inl lower)
  · exact .inr (.inr rfl)

theorem isNameChar_of_isNameStart {c : Char} (starts : isNameStart c = true) :
    isNameChar c = true := by
  simp only [isNameStart, isNameChar, Char.isAlphanum, Bool.or_eq_true] at starts ⊢
  exact starts.imp_left .inl

theorem isNameChar_of_isBlank {c : Char} (blank : Text.isBlank c = true) :
    isNameChar c = false := by
  have apart : ∀ r ∈ Text.blankRanges, r.2 < 48 ∨ 122 < r.1 := by decide
  rw [← Bool.not_eq_true]
  intro char
  obtain ⟨r, range, low, high⟩ := Text.Ranges.contains_iff.mp blank
  have code := toNat_of_isNameChar char
  have := apart r range
  omega

theorem isBlank_of_isNameChar {c : Char} (char : isNameChar c = true) : Text.isBlank c = false := by
  rw [← Bool.not_eq_true]
  intro blank
  rw [isNameChar_of_isBlank blank] at char
  cases char

/-- A name does not start with a digit of any script. -/
theorem isDecimalDigit_of_isNameStart {c : Char} (starts : isNameStart c = true) :
    Text.isDecimalDigit c = false := by
  have apart : ∀ z ∈ Text.decimalZeros, z + 9 < 65 ∨ 122 < z := by decide
  rw [← Bool.not_eq_true, Text.isDecimalDigit, Text.decimalDigit?, Option.isSome_map,
    List.find?_isSome]
  rintro ⟨z, zero, within⟩
  simp only [Bool.and_eq_true, decide_eq_true_eq] at within
  have code := toNat_of_isNameStart starts
  have := apart z zero
  omega

/-- What `stripChars` removes stands at the ends and is blank. -/
theorem exists_blank_ends (cs : List Char) : ∃ front back,
    (∀ c ∈ front, Text.isBlank c = true) ∧ (∀ c ∈ back, Text.isBlank c = true) ∧
    cs = front ++ Text.stripChars cs ++ back := by
  have inner := List.takeWhile_append_dropWhile (p := Text.isBlank)
    (l := (cs.dropWhile Text.isBlank).reverse)
  refine ⟨cs.takeWhile Text.isBlank,
    ((cs.dropWhile Text.isBlank).reverse.takeWhile Text.isBlank).reverse,
    List.all_eq_true.mp List.all_takeWhile, fun c member => ?_, ?_⟩
  · exact List.all_eq_true.mp List.all_takeWhile c (List.mem_reverse.mp member)
  · rw [Text.stripChars, List.append_assoc, ← List.reverse_append, inner, List.reverse_reverse,
      List.takeWhile_append_dropWhile]

/-- The characters that end a token wherever they stand. -/
def IsDelimiter (c : Char) : Prop := Text.isBlank c = true ∨ c = '(' ∨ c = ')' ∨ c = ','

namespace IsDelimiter

variable {c : Char}

theorem not_digit (delimiter : IsDelimiter c) : Text.isDecimalDigit c = false := by
  obtain blank | rfl | rfl | rfl := delimiter
  · rw [← Bool.not_eq_true]
    intro digit
    rw [Text.isBlank_of_isDecimalDigit digit] at blank
    cases blank
  all_goals decide

theorem not_nameChar (delimiter : IsDelimiter c) : isNameChar c = false := by
  obtain blank | rfl | rfl | rfl := delimiter
  · exact isNameChar_of_isBlank blank
  all_goals decide

theorem not_mark (delimiter : IsDelimiter c) : c ∉ ['.', '+', '-', 'e', 'E'] := by
  obtain blank | rfl | rfl | rfl := delimiter
  · intro member
    simp only [List.mem_cons, List.not_mem_nil, or_false] at member
    obtain rfl | rfl | rfl | rfl | rfl := member <;> exact absurd blank (by decide)
  all_goals decide

end IsDelimiter

/-- A text that is empty or begins with a delimiter. -/
def Delimits (rest : List Char) : Prop := ∀ c, rest.head? = some c → IsDelimiter c

theorem delimits_cons {c : Char} (delimiter : IsDelimiter c) (rest : List Char) :
    Delimits (c :: rest) := by
  rintro d ⟨⟩
  exact delimiter

theorem delimits_space (rest : List Char) : Delimits (' ' :: rest) :=
  delimits_cons (.inl (by decide)) rest

theorem delimits_opening (rest : List Char) : Delimits ('(' :: rest) :=
  delimits_cons (.inr (.inl rfl)) rest

theorem delimits_closing (rest : List Char) : Delimits (')' :: rest) :=
  delimits_cons (.inr (.inr (.inl rfl))) rest

theorem delimits_comma (rest : List Char) : Delimits (',' :: rest) :=
  delimits_cons (.inr (.inr (.inr rfl))) rest

/-! ## In front of a delimiter -/

/-- What is taken off the front of a text is the same when more follows behind a delimiter. -/
def Framed (span : List Char → List Char × List Char) : Prop :=
  ∀ (cs : List Char) {rest : List Char}, Delimits rest →
    span (cs ++ rest) = ((span cs).1, (span cs).2 ++ rest)

theorem framed_spanDigits : Framed spanDigits := by
  intro cs rest delimits
  induction cs with
  | nil =>
    cases rest with
    | nil => rfl
    | cons c rest => simp [spanDigits, (delimits c rfl).not_digit]
  | cons c cs ih =>
    simp only [spanDigits, Prod.mk.injEq] at ih ⊢
    by_cases digit : Text.isDecimalDigit c = true
    · simp [digit, ih]
    · simp [digit]

theorem framed_spanSign : Framed spanSign := by
  intro cs rest delimits
  cases cs with
  | nil =>
    cases rest with
    | nil => rfl
    | cons c rest =>
      have noMark := (delimits c rfl).not_mark
      simp only [List.mem_cons, List.not_mem_nil, or_false, not_or] at noMark
      simp [spanSign, noMark]
  | cons c cs =>
    rw [List.cons_append, spanSign, spanSign]
    split <;> rfl

theorem framed_spanExponent : Framed spanExponent := by
  intro cs rest delimits
  cases cs with
  | nil =>
    cases rest with
    | nil => rfl
    | cons c rest =>
      have noMark := (delimits c rfl).not_mark
      simp only [List.mem_cons, List.not_mem_nil, or_false, not_or] at noMark
      simp [spanExponent, noMark]
  | cons c cs =>
    simp only [List.cons_append, spanExponent, framed_spanSign cs delimits,
      framed_spanDigits _ delimits]
    split
    · split <;> rfl
    · rfl

theorem framed_spanMantissa : Framed spanMantissa := by
  intro cs rest delimits
  unfold spanMantissa
  rw [framed_spanDigits cs delimits]
  dsimp only
  generalize spanDigits cs = whole
  obtain ⟨digits, behind⟩ := whole
  cases behind with
  | nil =>
    cases rest with
    | nil => rfl
    | cons c rest =>
      have noMark := (delimits c rfl).not_mark
      simp only [List.mem_cons, List.not_mem_nil, or_false, not_or] at noMark
      simp [noMark]
  | cons c behind =>
    by_cases point : c = '.'
    · subst point
      simp only [List.cons_append, framed_spanDigits behind delimits]
      split <;> rfl
    · simp [point]

theorem framed_spanNumber : Framed spanNumber := by
  intro cs rest delimits
  simp only [spanNumber, framed_spanMantissa cs delimits, framed_spanExponent _ delimits]
  split <;> rfl

theorem spanName_char {c : Char} (char : isNameChar c = true) (cs : List Char) :
    spanName (c :: cs) = (c :: (spanName cs).1, (spanName cs).2) := by
  have noPoint : c ≠ '.' := fun same => absurd (same ▸ char) (by decide)
  rw [spanName]
  · rw [if_pos char]
  · exact fun d ds same _ => noPoint same

theorem spanName_point {c : Char} (starts : isNameStart c = true) (cs : List Char) :
    spanName ('.' :: c :: cs) = ('.' :: c :: (spanName cs).1, (spanName cs).2) := by
  rw [spanName, if_pos starts]

/-- A name ends in front of a character that is none of its own, and in front of a point without an
identifier behind it. -/
theorem spanName_stop {cs : List Char} (char : ∀ c, cs.head? = some c → isNameChar c = false)
    (segment : ∀ c rest, cs = '.' :: c :: rest → isNameStart c = false) :
    spanName cs = ([], cs) := by
  fun_cases spanName cs with
  | case1 => rfl
  | case2 c cs starts => rw [segment c cs rfl] at starts; cases starts
  | case3 => rfl
  | case4 c cs noPoint isChar => rw [char c rfl] at isChar; cases isChar
  | case5 => rfl

theorem framed_spanName : Framed spanName := by
  intro cs rest delimits
  fun_induction spanName cs with
  | case1 =>
    refine spanName_stop (fun c first => (delimits c first).not_nameChar) ?_
    rintro c rest rfl
    exact absurd (.head _) (delimits '.' rfl).not_mark
  | case2 c cs starts more ih =>
    rw [List.cons_append, List.cons_append, spanName_point starts, ih]
  | case3 c cs stops =>
    refine spanName_stop ?_ ?_
    · rintro d ⟨⟩
      decide
    · rintro d behind ⟨⟩
      simpa using stops
  | case4 c cs noPoint char more ih =>
    rw [List.cons_append, spanName_char char, ih]
  | case5 c cs noPoint noChar =>
    refine spanName_stop ?_ ?_
    · rintro d ⟨⟩
      exact Bool.not_eq_true _ ▸ noChar
    · intro d behind same
      cases cs with
      | nil =>
        -- the point is the last character, and a delimiter begins no identifier
        obtain ⟨rfl, rfl⟩ := List.cons.inj same
        rw [← Bool.not_eq_true]
        intro starts
        have char := isNameChar_of_isNameStart starts
        rw [(delimits d rfl).not_nameChar] at char
        cases char
      | cons e cs => exact (noPoint e cs (List.cons.inj same).1 rfl).elim

theorem lexeme?_append {cs rest : List Char} (nonempty : cs ≠ []) (delimits : Delimits rest) :
    lexeme? (cs ++ rest) = (lexeme? cs).map fun read => (read.1, read.2 ++ rest) := by
  cases cs with
  | nil => exact absurd rfl nonempty
  | cons c cs =>
    have number := framed_spanNumber (c :: cs) delimits
    rw [List.cons_append] at number
    simp only [List.cons_append, lexeme?, number, framed_spanName cs delimits]
    split
    · rfl
    · split
      · rfl
      · split
        · rfl
        · cases Symbol.ofChar? c <;> rfl

/-! ## A token on its own -/

theorem spanDigits_of_digits {digits rest : List Char} (all : Digits digits)
    (stop : ∀ c, rest.head? = some c → Text.isDecimalDigit c = false) :
    spanDigits (digits ++ rest) = (digits, rest) := by
  induction digits with
  | nil =>
    cases rest with
    | nil => rfl
    | cons c rest => simp [spanDigits, stop c rfl]
  | cons c digits ih =>
    have more := ih fun d member => all d (.tail _ member)
    simp only [spanDigits, Prod.mk.injEq] at more ⊢
    simp [all c (.head _), more]

theorem spanExponent_of_shape {cs : List Char} (shape : ExponentShape cs) :
    spanExponent cs = (cs, []) := by
  cases shape with
  | none => rfl
  | @some mark sign digits marked signed nonempty all =>
    have read := @spanDigits_of_digits digits [] all (by simp)
    rw [List.append_nil] at read
    have signRead : spanSign (sign ++ digits) = (sign, digits) := by
      obtain rfl | rfl | rfl := signed
      · obtain ⟨c, others, rfl⟩ := List.exists_cons_of_ne_nil nonempty
        -- the first digit is no sign
        have digit := all c (.head _)
        have minus : c ≠ '-' := fun same => absurd (same ▸ digit) (by decide)
        have plus : c ≠ '+' := fun same => absurd (same ▸ digit) (by decide)
        simp [spanSign, minus, plus]
      · rfl
      · rfl
    simp [spanExponent, marked, signRead, read, nonempty]

theorem spanMantissa_of_shape {mantissa exponent : List Char} (shape : MantissaShape mantissa)
    (tail : ExponentShape exponent) :
    spanMantissa (mantissa ++ exponent) = (mantissa, exponent) := by
  have stop := Decimal.head?_of_exponent tail
  cases shape with
  | whole nonempty all =>
    have read := spanDigits_of_digits all fun c first => (stop c first).1
    rw [spanMantissa, read]
    dsimp only
    split
    · exact absurd rfl (stop '.' rfl).2
    · rfl
  | @pointed digits fraction nonempty all behind =>
    have read := @spanDigits_of_digits digits ('.' :: fraction ++ exponent) all (by simp; decide)
    have readFraction := spanDigits_of_digits behind fun c first => (stop c first).1
    rw [List.append_assoc, spanMantissa, read]
    simp only [List.cons_append, readFraction, if_neg nonempty]

theorem spanNumber_of_shape {mantissa exponent : List Char} (shape : MantissaShape mantissa)
    (tail : ExponentShape exponent) :
    spanNumber (mantissa ++ exponent) = (mantissa ++ exponent, []) := by
  have nonempty : mantissa ≠ [] := by
    obtain ⟨c, rest, rfl, _⟩ := Decimal.head_of_mantissa shape
    exact List.cons_ne_nil c rest
  simp [spanNumber, spanMantissa_of_shape shape tail, nonempty, spanExponent_of_shape tail]

theorem spanName_taken (cs : List Char) : spanName (spanName cs).1 = ((spanName cs).1, []) := by
  fun_induction spanName cs with
  | case1 => rfl
  | case2 c cs starts more ih => rw [spanName_point starts, ih]
  | case3 => rfl
  | case4 c cs noPoint char more ih => rw [spanName_char char, ih]
  | case5 => rfl

/-- No number begins with any other character than a digit or a point. -/
theorem spanNumber_of_other {c : Char} (noDigit : Text.isDecimalDigit c = false) (noPoint : c ≠ '.')
    (cs : List Char) : (spanNumber (c :: cs)).1 = [] := by
  have mantissa : (spanMantissa (c :: cs)).1 = [] := by
    simp [spanMantissa, spanDigits, noDigit, noPoint]
  simp [spanNumber, mantissa]

/-- How the tokenizer builds a token. -/
inductive TokenShape : Token → Prop where
  | number {mantissa exponent : List Char} (shape : MantissaShape mantissa)
      (tail : ExponentShape exponent) : TokenShape (.number (String.ofList (mantissa ++ exponent)))
  | name {c : Char} {cs : List Char} (starts : isNameStart c = true)
      (whole : spanName cs = (cs, [])) : TokenShape (.name (String.ofList (c :: cs)))
  | symbol (s : Symbol) : TokenShape (.symbol s)

theorem lexeme?_blank {c : Char} (blank : Text.isBlank c = true) (cs : List Char) :
    lexeme? (c :: cs) = some (.blank, cs) := by
  rw [lexeme?, if_pos blank]

theorem lexeme?_symbol (s : Symbol) (cs : List Char) :
    lexeme? (s.char :: cs) = some (.token (.symbol s), cs) := by
  have kind : Text.isBlank s.char = false ∧ Text.isDecimalDigit s.char = false ∧
      s.char ≠ '.' ∧ isNameStart s.char = false := by cases s <;> decide
  obtain ⟨solid, noDigit, noPoint, noName⟩ := kind
  simp [lexeme?, solid, spanNumber_of_other noDigit noPoint, noName, Symbol.ofChar?_char]

theorem lexeme?_name {c : Char} (starts : isNameStart c = true) (cs : List Char) :
    lexeme? (c :: cs) =
      some (.token (.name (String.ofList (c :: (spanName cs).1))), (spanName cs).2) := by
  have char := isNameChar_of_isNameStart starts
  have solid : Text.isBlank c = false := by
    rw [← Bool.not_eq_true]
    intro blank
    rw [isNameChar_of_isBlank blank] at char
    cases char
  have noPoint : c ≠ '.' := fun same => absurd (same ▸ char) (by decide)
  simp [lexeme?, solid, spanNumber_of_other (isDecimalDigit_of_isNameStart starts) noPoint, starts]

theorem lexeme?_number {mantissa exponent : List Char} (shape : MantissaShape mantissa)
    (tail : ExponentShape exponent) :
    lexeme? (mantissa ++ exponent) =
      some (.token (.number (String.ofList (mantissa ++ exponent))), []) := by
  have read := spanNumber_of_shape shape tail
  obtain ⟨c, rest, rfl, first⟩ := Decimal.head_of_mantissa shape
  have solid : Text.isBlank c = false := by
    obtain digit | rfl := first
    · exact Text.isBlank_of_isDecimalDigit digit
    · decide
  rw [List.cons_append] at read ⊢
  simp [lexeme?, solid, read]

theorem shape_of_lexeme? {cs rest : List Char} {t : Token}
    (lexeme : lexeme? cs = some (.token t, rest)) : TokenShape t := by
  unfold lexeme? at lexeme
  split at lexeme
  · cases lexeme
  · next c cs =>
    split at lexeme
    · cases lexeme
    · dsimp only at lexeme
      split at lexeme
      · next taken =>
        cases lexeme
        have mantissa : (spanMantissa (c :: cs)).1 ≠ [] :=
          fun none => taken (by simp [spanNumber, none])
        simp only [spanNumber, if_neg mantissa]
        exact .number (spanMantissa_shape mantissa) (spanExponent_shape _)
      · split at lexeme
        · next starts =>
          cases lexeme
          exact .name starts (spanName_taken cs)
        · obtain ⟨s, _, same⟩ := Option.map_eq_some_iff.mp lexeme
          cases same
          exact .symbol s

theorem lexeme?_text {t : Token} (shape : TokenShape t) :
    lexeme? t.text.toList = some (.token t, []) := by
  cases shape with
  | number shape tail => rw [Token.text, String.toList_ofList, lexeme?_number shape tail]
  | name starts whole => rw [Token.text, String.toList_ofList, lexeme?_name starts, whole]
  | symbol s => rw [Token.text, String.toList_singleton, lexeme?_symbol]

/-! ## Whole texts -/

namespace Token

/-- Only a name can have more points than formulas allow. -/
def Allowed (t : Token) : Prop := ∀ name, t = .name name → points name ≤ 1

/-- The tokens that a text consists of. -/
inductive Reads : List Char → List Token → Prop where
  | nil : Reads [] []
  | blank {cs rest : List Char} {ts : List Token} (lexeme : lexeme? cs = some (.blank, rest))
      (behind : Reads rest ts) : Reads cs ts
  | token {cs rest : List Char} {t : Token} {ts : List Token}
      (lexeme : lexeme? cs = some (.token t, rest)) (allowed : t.Allowed)
      (behind : Reads rest ts) : Reads cs (t :: ts)

theorem reads_of_ofChars {cs : List Char} {ts : List Token} (tokens : ofChars cs = .ok ts) :
    Reads cs ts := by
  fun_induction ofChars cs generalizing ts with
  | case1 =>
    cases tokens
    exact .nil
  | case2 => cases tokens
  | case3 c cs rest lexeme ih => exact .blank lexeme (ih tokens)
  | case4 => cases tokens
  | case5 c cs name rest lexeme single ih =>
    obtain ⟨others, read, rfl⟩ := map_eq_ok_iff.mp tokens
    refine .token lexeme ?_ (ih read)
    rintro n ⟨⟩
    exact Nat.le_of_not_lt single
  | case6 c cs t rest noName lexeme ih =>
    obtain ⟨others, read, rfl⟩ := map_eq_ok_iff.mp tokens
    exact .token lexeme (fun n same => (noName n same).elim) (ih read)

/-- A text has tokens exactly if it consists of them. -/
theorem ofChars_eq_ok_iff {cs : List Char} {ts : List Token} :
    ofChars cs = .ok ts ↔ Reads cs ts := by
  refine ⟨reads_of_ofChars, fun reads => ?_⟩
  induction reads with
  | nil => rw [ofChars]
  | @blank cs rest ts lexeme behind ih =>
    fun_cases ofChars cs with
    | case1 => cases lexeme
    | case3 c cs others first =>
      rw [lexeme] at first
      cases first
      exact ih
    | _ => simp_all
  | @token cs rest t ts lexeme allowed behind ih =>
    fun_cases ofChars cs with
    | case1 => cases lexeme
    | case4 c cs name others first many =>
      rw [lexeme] at first
      cases first
      exact absurd many (Nat.not_lt_of_le (allowed name rfl))
    | case5 c cs name others first =>
      rw [lexeme] at first
      cases first
      rw [ih]
      rfl
    | case6 c cs t others noName first =>
      rw [lexeme] at first
      cases first
      rw [ih]
      rfl
    | _ => simp_all

/-- In a text of tokens the scan finds nothing to leave out. -/
theorem scanChars_of_reads {cs : List Char} {ts : List Token} (reads : Reads cs ts) :
    scanChars cs = ts := by
  induction reads with
  | nil => rw [scanChars]
  | @blank cs rest ts lexeme behind ih =>
    fun_cases scanChars cs with
    | case1 => cases lexeme
    | case3 c cs others first =>
      rw [lexeme] at first
      cases first
      exact ih
    | _ => simp_all
  | @token cs rest t ts lexeme allowed behind ih =>
    fun_cases scanChars cs with
    | case1 => cases lexeme
    | case4 c cs t others first =>
      rw [lexeme] at first
      cases first
      rw [ih]
    | _ => simp_all

namespace Reads

variable {cs rest : List Char} {ts us : List Token}

theorem symbol (s : Symbol) (behind : Reads rest us) : Reads (s.char :: rest) (.symbol s :: us) :=
  .token (lexeme?_symbol s rest) nofun behind

theorem space (behind : Reads rest us) : Reads (' ' :: rest) us :=
  .blank (lexeme?_blank (by decide) rest) behind

theorem blanks {front : List Char} (blank : ∀ c ∈ front, Text.isBlank c = true)
    (behind : Reads rest us) : Reads (front ++ rest) us := by
  induction front with
  | nil => exact behind
  | cons c front ih =>
    exact .blank (lexeme?_blank (blank c (.head _)) _) (ih fun d member => blank d (.tail _ member))

/-- A text is cut in front of a delimiter. -/
theorem append (before : Reads cs ts) (delimits : Delimits rest) (behind : Reads rest us) :
    Reads (cs ++ rest) (ts ++ us) := by
  -- a lexeme of the front is one of the whole text
  have continued {cs l others} (lexeme : lexeme? cs = some (l, others)) :
      lexeme? (cs ++ rest) = some (l, others ++ rest) := by
    have nonempty : cs ≠ [] := by
      rintro rfl
      cases lexeme
    rw [lexeme?_append nonempty delimits, lexeme]
    rfl
  induction before with
  | nil => exact behind
  | blank lexeme _ ih => exact .blank (continued lexeme) ih
  | token lexeme allowed _ ih => exact .token (continued lexeme) allowed ih

theorem behind_blanks {front : List Char} (blank : ∀ c ∈ front, Text.isBlank c = true)
    (reads : Reads (front ++ rest) us) : Reads rest us := by
  induction front with
  | nil => exact reads
  | cons c front ih =>
    apply ih fun d member => blank d (.tail _ member)
    have first := lexeme?_blank (blank c (.head _)) (front ++ rest)
    cases reads with
    | blank lexeme behind =>
      rw [List.cons_append, first] at lexeme
      cases lexeme
      exact behind
    | token lexeme allowed behind =>
      rw [List.cons_append, first] at lexeme
      cases lexeme

/-- Each side of a cut has a part of the tokens. -/
theorem split (reads : Reads (cs ++ rest) ts) (delimits : Delimits rest) :
    ∃ before behind, ts = before ++ behind ∧ Reads cs before ∧ Reads rest behind := by
  -- a lexeme of the whole text that begins in front of the cut ends there too
  have cut {cs l others} (nonempty : cs ≠ []) (lexeme : lexeme? (cs ++ rest) = some (l, others)) :
      ∃ inner, lexeme? cs = some (l, inner) ∧ others = inner ++ rest := by
    rw [lexeme?_append nonempty delimits, Option.map_eq_some_iff] at lexeme
    obtain ⟨⟨l, inner⟩, found, same⟩ := lexeme
    cases same
    exact ⟨inner, found, rfl⟩
  generalize whole : cs ++ rest = all at reads
  induction reads generalizing cs with
  | nil =>
    obtain ⟨rfl, rfl⟩ := List.append_eq_nil_iff.mp whole
    exact ⟨[], [], rfl, .nil, .nil⟩
  | blank lexeme behind ih =>
    subst whole
    by_cases nonempty : cs = []
    · subst nonempty
      exact ⟨[], _, rfl, .nil, .blank lexeme behind⟩
    · obtain ⟨inner, found, rfl⟩ := cut nonempty lexeme
      obtain ⟨before, after, rfl, left, right⟩ := ih rfl
      exact ⟨before, after, rfl, .blank found left, right⟩
  | token lexeme allowed behind ih =>
    subst whole
    by_cases nonempty : cs = []
    · subst nonempty
      exact ⟨[], _, rfl, .nil, .token lexeme allowed behind⟩
    · obtain ⟨inner, found, rfl⟩ := cut nonempty lexeme
      obtain ⟨before, after, rfl, left, right⟩ := ih rfl
      exact ⟨_ :: before, after, rfl, .token found allowed left, right⟩

end Reads

/-- Blank ends hold no tokens. -/
theorem reads_strip_iff {cs : List Char} {ts : List Token} :
    Reads (Text.stripChars cs) ts ↔ Reads cs ts := by
  obtain ⟨front, back, blankFront, blankBack, whole⟩ := exists_blank_ends cs
  have delimits : Delimits back := fun c first => .inl (blankBack c (List.mem_of_head? first))
  constructor
  · intro reads
    have trailing : Reads back [] := by
      rw [← back.append_nil]
      exact .blanks blankBack .nil
    have padded := Reads.blanks blankFront (reads.append delimits trailing)
    rwa [← List.append_assoc, ← whole, List.append_nil] at padded
  · intro reads
    rw [whole, List.append_assoc] at reads
    obtain ⟨before, behind, rfl, inner, trailing⟩ := (reads.behind_blanks blankFront).split delimits
    -- behind the blank characters at the end the text is over
    rw [← back.append_nil] at trailing
    cases trailing.behind_blanks blankBack with
    | nil => rwa [List.append_nil]
    | blank lexeme _ => cases lexeme
    | token lexeme _ _ => cases lexeme

namespace Reads

variable {cs : List Char} {ts : List Token}

theorem shape_of_mem (reads : Reads cs ts) {t : Token} (member : t ∈ ts) :
    TokenShape t ∧ t.Allowed := by
  induction reads with
  | nil => cases member
  | blank _ _ ih => exact ih member
  | token lexeme allowed _ ih =>
    obtain rfl | later := List.mem_cons.mp member
    · exact ⟨shape_of_lexeme? lexeme, allowed⟩
    · exact ih later

/-- A token of a text is read as itself when it stands alone. -/
theorem text_of_mem (reads : Reads cs ts) {t : Token} (member : t ∈ ts) :
    Reads t.text.toList [t] := by
  obtain ⟨shape, allowed⟩ := reads.shape_of_mem member
  exact .token (lexeme?_text shape) allowed .nil

end Reads

end Token

theorem isSome_read?_of_number {cs : List Char} {ts : List Token} {text : String}
    (tokens : Token.ofChars cs = .ok ts) (member : .number text ∈ ts) :
    (Decimal.read? text).isSome = true := by
  cases ((Token.reads_of_ofChars tokens).shape_of_mem member).1 with
  | number shape tail => exact Decimal.isSome_read? shape tail

end Costing.Formula

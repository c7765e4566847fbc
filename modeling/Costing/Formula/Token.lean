import Costing.Fault
import Costing.Text.CharacterClass

/-! # Tokens of formulas

A formula is read as numbers, names and symbols; blank characters only separate them.

* A number is digits of any script with an optional point and an optional exponent.
* A name is one or more identifiers with points between them.  More than one point is refused
  by `Token.ofChars` and tolerated by `Token.scanChars`.

`lexeme?` takes one token or one blank character off the front of a text.  `Token.ofChars`
repeats it and stops at the first character that starts nothing; `Token.scanChars` skips such
characters, so that a half-typed formula still shows its names. -/

namespace Costing.Formula

/-- The symbols of formulas. -/
inductive Symbol where
  | plus | minus | times | over | power | opening | closing | comma
deriving DecidableEq, Repr

namespace Symbol

def char : Symbol → Char
  | .plus => '+'
  | .minus => '-'
  | .times => '*'
  | .over => '/'
  | .power => '^'
  | .opening => '('
  | .closing => ')'
  | .comma => ','

def ofChar? : Char → Option Symbol
  | '+' => some .plus
  | '-' => some .minus
  | '*' => some .times
  | '/' => some .over
  | '^' => some .power
  | '(' => some .opening
  | ')' => some .closing
  | ',' => some .comma
  | _ => none

theorem ofChar?_char (s : Symbol) : ofChar? s.char = some s := by cases s <;> rfl

theorem char_of_ofChar? {c : Char} {s : Symbol} (h : ofChar? c = some s) : s.char = c := by
  unfold ofChar? at h
  split at h <;> simp_all <;> subst h <;> rfl

end Symbol

/-- A token of a formula. -/
inductive Token where
  | number (text : String)
  | name (text : String)
  | symbol (symbol : Symbol)
deriving DecidableEq, Repr

namespace Token

def text : Token → String
  | .number s => s
  | .name s => s
  | .symbol s => String.singleton s.char

end Token

/-! ## The longest token at the front of a text

Each function below splits a text into a part at its front and the rest. -/

def spanDigits (cs : List Char) : List Char × List Char :=
  (cs.takeWhile Text.isDecimalDigit, cs.dropWhile Text.isDecimalDigit)

def spanSign : List Char → List Char × List Char
  | [] => ([], [])
  | c :: cs => if c = '+' ∨ c = '-' then ([c], cs) else ([], c :: cs)

/-- An exponent with at least one digit, if one stands first. -/
def spanExponent : List Char → List Char × List Char
  | [] => ([], [])
  | c :: cs =>
    if c = 'e' ∨ c = 'E' then
      let sign := spanSign cs
      let digits := spanDigits sign.2
      if digits.1 = [] then ([], c :: cs) else (c :: sign.1 ++ digits.1, digits.2)
    else ([], c :: cs)

/-- Digits with an optional point, or a point with digits. -/
def spanMantissa (cs : List Char) : List Char × List Char :=
  let whole := spanDigits cs
  match whole.2 with
  | '.' :: rest =>
    let fraction := spanDigits rest
    if whole.1 = [] ∧ fraction.1 = [] then ([], cs)
    else (whole.1 ++ '.' :: fraction.1, fraction.2)
  | _ => whole

def spanNumber (cs : List Char) : List Char × List Char :=
  let mantissa := spanMantissa cs
  if mantissa.1 = [] then ([], cs)
  else
    let exponent := spanExponent mantissa.2
    (mantissa.1 ++ exponent.1, exponent.2)

/-- The rest of a name, of which at least one character has been read. -/
def spanName : List Char → List Char × List Char
  | [] => ([], [])
  | '.' :: c :: cs =>
    if isNameStart c then
      let more := spanName cs
      ('.' :: c :: more.1, more.2)
    else ([], '.' :: c :: cs)
  | c :: cs =>
    if isNameChar c then
      let more := spanName cs
      (c :: more.1, more.2)
    else ([], c :: cs)

theorem spanDigits_append (cs : List Char) : (spanDigits cs).1 ++ (spanDigits cs).2 = cs :=
  List.takeWhile_append_dropWhile

theorem spanSign_append (cs : List Char) : (spanSign cs).1 ++ (spanSign cs).2 = cs := by
  unfold spanSign
  split
  · rfl
  · split <;> rfl

theorem spanExponent_append (cs : List Char) :
    (spanExponent cs).1 ++ (spanExponent cs).2 = cs := by
  unfold spanExponent
  split
  · rfl
  · next c cs =>
    split
    · dsimp only
      split
      · rfl
      · rw [List.cons_append, List.cons_append, List.append_assoc, spanDigits_append,
          spanSign_append]
    · rfl

theorem spanMantissa_append (cs : List Char) :
    (spanMantissa cs).1 ++ (spanMantissa cs).2 = cs := by
  have hw := spanDigits_append cs
  unfold spanMantissa
  dsimp only
  split
  · next rest h =>
    split
    · rfl
    · simp only [List.append_assoc, List.cons_append, spanDigits_append]
      rw [← h, hw]
  · exact hw

theorem spanNumber_append (cs : List Char) : (spanNumber cs).1 ++ (spanNumber cs).2 = cs := by
  unfold spanNumber
  dsimp only
  split
  · rfl
  · simp only [List.append_assoc, spanExponent_append, spanMantissa_append]

theorem spanName_append (cs : List Char) : (spanName cs).1 ++ (spanName cs).2 = cs := by
  fun_induction spanName cs <;> simp_all +zetaDelta

/-- One blank character, or a token. -/
inductive Lexeme where
  | blank
  | token (token : Token)
deriving DecidableEq

/-- The lexeme at the front of a text, and what follows it. -/
def lexeme? : List Char → Option (Lexeme × List Char)
  | [] => none
  | c :: cs =>
    if Text.isBlank c then some (.blank, cs)
    else
      let number := spanNumber (c :: cs)
      if number.1 ≠ [] then some (.token (.number (String.ofList number.1)), number.2)
      else if isNameStart c then
        let more := spanName cs
        some (.token (.name (String.ofList (c :: more.1))), more.2)
      else (Symbol.ofChar? c).map fun s => (.token (.symbol s), cs)

theorem lexeme?_shorter {cs rest : List Char} {l : Lexeme} (h : lexeme? cs = some (l, rest)) :
    rest.length < cs.length := by
  unfold lexeme? at h
  split at h
  · simp at h
  · next c cs =>
    split at h
    · simp only [Option.some.injEq, Prod.mk.injEq] at h
      simp [h.2]
    · dsimp only at h
      split at h
      · next hn =>
        simp only [Option.some.injEq, Prod.mk.injEq] at h
        have hlen := congrArg List.length (spanNumber_append (c :: cs))
        have hpos := List.length_pos_iff.mpr hn
        rw [List.length_append] at hlen
        rw [← h.2]
        omega
      · split at h
        · simp only [Option.some.injEq, Prod.mk.injEq] at h
          have hlen := congrArg List.length (spanName_append cs)
          rw [List.length_append] at hlen
          rw [← h.2, List.length_cons]
          omega
        · simp only [Option.map_eq_some_iff, Prod.mk.injEq] at h
          obtain ⟨_, _, _, h⟩ := h
          simp [h]

namespace Token

def points (name : String) : Nat := name.toList.count '.'

def ofChars (cs : List Char) : Except SyntaxFault (List Token) :=
  match cs with
  | [] => .ok []
  | c :: cs =>
    match _h : lexeme? (c :: cs) with
    | none => .error (.unexpectedCharacter c)
    | some (.blank, rest) => ofChars rest
    | some (.token (.name text), rest) =>
      if 1 < points text then .error (.tooManyDots text)
      else (ofChars rest).map (.name text :: ·)
    | some (.token t, rest) => (ofChars rest).map (t :: ·)
termination_by cs.length
decreasing_by all_goals exact lexeme?_shorter _h

/-- The tokens of a text, with the characters left out that start no token. -/
def scanChars (cs : List Char) : List Token :=
  match cs with
  | [] => []
  | c :: cs =>
    match _h : lexeme? (c :: cs) with
    | none => scanChars cs
    | some (.blank, rest) => scanChars rest
    | some (.token t, rest) => t :: scanChars rest
termination_by cs.length
decreasing_by
  · simp
  all_goals exact lexeme?_shorter _h

/-- The tokens of a formula, blank ends included. -/
def ofText (s : String) : Except SyntaxFault (List Token) := ofChars s.toList

end Token

/-! ## Mentions of names -/

def splitName (name : String) : String × Option String :=
  match name.toList.dropWhile (· != '.') with
  | [] => (name, none)
  | _ :: property =>
    (String.ofList (name.toList.takeWhile (· != '.')), some (String.ofList property))

/-- A name as it occurs in a text that need not be a formula. -/
structure Mention where
  text : String
  base : String
  property : Option String
  isCall : Bool
deriving DecidableEq

namespace Mention

/-- The mention of a name before the given tokens.  Of a name with several points only the
first segment behind the base counts as its property. -/
def ofName (text : String) (after : List Token) : Mention :=
  let parts := splitName text
  { text := text
    base := parts.1
    property := parts.2.map fun p => (splitName p).1
    isCall := after.head? == some (.symbol .opening) }

def ofTokens : List Token → List Mention
  | [] => []
  | .name text :: after => ofName text after :: ofTokens after
  | _ :: after => ofTokens after

def scan (s : String) : List Mention := ofTokens (Token.scanChars s.toList)

end Mention

end Costing.Formula

import Costing.Naming
import Costing.Proofs.Output.Naming
import Mathlib.Data.List.TakeWhile

/-! # Names that are made for labels

A label is turned into an identifier in lower case (`smallName_nameOfLabel`), and what is such a
name already stays as it is (`nameOfLabel_nameOfLabel`).  Of such a name the checks of outputs and
parameters ask only whether it is taken, and the search for a free one is in vain only if the name
and all its numbered forms are taken (`freeName_mem_iff`). -/

namespace Costing

/-! ## Letters and digits -/

theorem toNat_lt_of_isAlphanum {c : Char} (word : c.isAlphanum = true) : c.toNat < 0x80 :=
  toNat_lt_of_isNameChar (by simp [isNameChar, word])

theorem isAlphanum_toLower {c : Char} (word : c.isAlphanum = true) :
    c.toLower.isAlphanum = true :=
  forall_ascii (P := fun c => c.isAlphanum = true → c.toLower.isAlphanum = true)
    (by decide +kernel) (toNat_lt_of_isAlphanum word) word

theorem isDigit_toLower {c : Char} (word : c.isAlphanum = true) : c.toLower.isDigit = c.isDigit :=
  forall_ascii (P := fun c => c.toLower.isDigit = c.isDigit)
    (by decide +kernel) (toNat_lt_of_isAlphanum word)

theorem toLower_toLower {c : Char} (word : c.isAlphanum = true) : c.toLower.toLower = c.toLower :=
  forall_ascii (P := fun c => c.toLower.toLower = c.toLower)
    (by decide +kernel) (toNat_lt_of_isAlphanum word)

/-- What is no digit among letters and digits has a letter for its lower case. -/
theorem isAlpha_toLower {c : Char} (word : c.isAlphanum = true) (digit : ¬ c.isDigit = true) :
    c.toLower.isAlpha = true := by
  have small := isAlphanum_toLower word
  rw [Char.isAlphanum, isDigit_toLower word, Bool.or_eq_true] at small
  exact small.resolve_right digit

/-- A digit has no case. -/
theorem toLower_of_isDigit {c : Char} (digit : c.isDigit = true) : c.toLower = c :=
  forall_ascii (P := fun c => c.isDigit = true → c.toLower = c)
    (by decide +kernel) (toNat_lt_of_isAlphanum (by simp [Char.isAlphanum, digit])) digit

/-! ## Names from labels -/

theorem restOfName_restOfName (gap : Bool) (cs : List Char) :
    restOfName false (restOfName gap cs) = restOfName gap cs := by
  induction cs generalizing gap with
  | nil => rfl
  | cons c cs ih =>
    by_cases word : c.isAlphanum = true
    · have low : isWordBreak '_' = true := by decide
      have sign : ('_' : Char).isAlphanum = false := by decide
      have again := toLower_toLower word
      cases gap <;> simp [restOfName, word, isAlphanum_toLower word, again, low, sign, ih]
    · simp [restOfName, word, ih]

/-- What a label leaves, after a low line in front of a digit. -/
theorem nameCharsOfLabel_cons {label : List Char} {c : Char} {cs : List Char}
    (words : label.dropWhile (!·.isAlphanum) = c :: cs) :
    nameCharsOfLabel label =
      (if c.isDigit then ['_'] else []) ++ c.toLower :: restOfName false cs := by
  rw [nameCharsOfLabel, words]
  dsimp only
  split <;> rfl

theorem nameCharsOfLabel_eq_nil_iff {label : List Char} :
    nameCharsOfLabel label = [] ↔ ∀ c ∈ label, c.isAlphanum = false := by
  have none := List.dropWhile_eq_nil_iff (p := fun c : Char => !c.isAlphanum) (l := label)
  simp only [Bool.not_eq_true'] at none
  rw [← none]
  cases words : label.dropWhile (!·.isAlphanum) with
  | nil => simp [nameCharsOfLabel, words]
  | cons c cs => simp [nameCharsOfLabel_cons words]

theorem nameCharsOfLabel_nameCharsOfLabel (label : List Char) :
    nameCharsOfLabel (nameCharsOfLabel label) = nameCharsOfLabel label := by
  cases words : label.dropWhile (!·.isAlphanum) with
  | nil =>
    have empty : nameCharsOfLabel label = [] := by rw [nameCharsOfLabel, words]
    rw [empty]
    rfl
  | cons c cs =>
    have stop := List.head?_dropWhile_not (fun c : Char => !c.isAlphanum) label
    rw [words] at stop
    have word : c.isAlphanum = true := by simpa using stop
    -- the low line in front is no part of a word, so it is dropped and put back
    have again : (nameCharsOfLabel label).dropWhile (!·.isAlphanum) =
        c.toLower :: restOfName false cs := by
      have sign : ('_' : Char).isAlphanum = false := by decide
      rw [nameCharsOfLabel_cons words]
      by_cases digit : c.isDigit = true <;> simp [digit, isAlphanum_toLower word, sign]
    rw [nameCharsOfLabel_cons again, nameCharsOfLabel_cons words, restOfName_restOfName,
      isDigit_toLower word, toLower_toLower word]

/-- A name that is made once is kept. -/
theorem nameOfLabel_nameOfLabel (label : String) :
    nameOfLabel (nameOfLabel label) = nameOfLabel label := by
  rw [nameOfLabel, nameOfLabel, String.toList_ofList, nameCharsOfLabel_nameCharsOfLabel]

theorem nameOfLabel_eq_empty_iff {label : String} :
    nameOfLabel label = "" ↔ ∀ c ∈ label.toList, c.isAlphanum = false := by
  rw [← nameCharsOfLabel_eq_nil_iff, nameOfLabel, ← String.toList_inj, String.toList_ofList]
  rfl

/-! ## Identifiers in lower case -/

/-- A character of identifiers that is no capital. -/
def IsSmall (c : Char) : Prop := isNameChar c = true ∧ c.toLower = c

instance : DecidablePred IsSmall := fun c =>
  inferInstanceAs (Decidable (isNameChar c = true ∧ c.toLower = c))

theorem isSmall_toLower {c : Char} (word : c.isAlphanum = true) : IsSmall c.toLower :=
  ⟨by simp [isNameChar, isAlphanum_toLower word], toLower_toLower word⟩

theorem isSmall_of_isDigit {c : Char} (digit : c.isDigit = true) : IsSmall c :=
  ⟨by simp [isNameChar, Char.isAlphanum, digit], toLower_of_isDigit digit⟩

theorem isSmall_lowLine : IsSmall '_' := by decide

/-- An identifier in lower case. -/
structure SmallName (name : String) : Prop where
  identifier : isIdentifier name = true
  small : ∀ c ∈ name.toList, IsSmall c

namespace SmallName

variable {name : String}

theorem ne_empty (here : SmallName name) : name ≠ "" := by
  rintro rfl
  exact absurd here.identifier (by decide)

theorem toLower_eq (here : SmallName name) : name.toLower = name := by
  apply String.toList_inj.mp
  rw [toList_toLower]
  exact (List.map_congr_left fun c member => (here.small c member).2).trans (List.map_id _)

theorem lower_eq (here : SmallName name) : Text.lower name = name := by
  rw [lower_of_ascii fun c member => toNat_lt_of_isNameChar (here.small c member).1,
    here.toLower_eq]

/-- A text without blank characters is stripped of nothing. -/
theorem strip_eq (here : SmallName name) : Text.strip name = name := by
  have kept : ∀ {cs : List Char}, (∀ c ∈ cs, IsSmall c) → cs.dropWhile Text.isBlank = cs := by
    intro cs small
    cases cs with
    | nil => rfl
    | cons c cs =>
      have solid := Formula.isBlank_of_isNameChar (small c (.head _)).1
      exact List.dropWhile_cons_of_neg (by simp [solid])
  have front := kept here.small
  have back := kept fun c member => here.small c (List.mem_reverse.mp member)
  rw [Text.strip, Text.stripChars, front, back, List.reverse_reverse, String.ofList_toList]

theorem hasOutputPrefix_eq_false (here : SmallName name) : hasOutputPrefix name = false :=
  hasOutputPrefix_of_plain (VariableName.plain ⟨name, here.identifier⟩)

theorem append (here : SmallName name) {tail : String} (small : ∀ c ∈ tail.toList, IsSmall c) :
    SmallName (name ++ tail) where
  identifier := by
    have first := here.identifier
    unfold isIdentifier at first ⊢
    rw [String.toList_append]
    cases chars : name.toList with
    | nil => simp [chars] at first
    | cons c cs =>
      simp only [chars, Bool.and_eq_true] at first
      have others : tail.toList.all isNameChar = true :=
        List.all_eq_true.mpr fun d member => (small d member).1
      simp only [List.cons_append, List.all_append, first.1, first.2, others, Bool.and_self]
  small := by
    intro c member
    rw [String.toList_append, List.mem_append] at member
    exact member.elim (here.small c) (small c)

theorem numbered (here : SmallName name) (n : Nat) : SmallName (numbered name n) := by
  have digits : ∀ c ∈ (toString n).toList, IsSmall c := by
    intro c member
    rw [Nat.toString_eq_repr, Nat.toList_repr] at member
    exact isSmall_of_isDigit (Nat.isDigit_of_mem_toDigits (by decide) (by decide) member)
  have sign : ∀ c ∈ "_".toList, IsSmall c := by
    intro c member
    obtain rfl : c = '_' := by simpa using member
    exact isSmall_lowLine
  exact (here.append sign).append digits

end SmallName

theorem isSmall_restOfName (gap : Bool) (cs : List Char) : ∀ c ∈ restOfName gap cs, IsSmall c := by
  induction cs generalizing gap with
  | nil => nofun
  | cons c cs ih =>
    intro d member
    rw [restOfName] at member
    split at member
    · next word =>
      rw [List.mem_append] at member
      obtain first | later := member
      · cases gap <;> simp at first
        · exact first ▸ isSmall_toLower word
        · obtain rfl | rfl := first
          · exact isSmall_lowLine
          · exact isSmall_toLower word
      · exact ih false d later
    · exact ih _ d member

/-- A label with a letter or digit is turned into an identifier in lower case. -/
theorem smallName_nameOfLabel {label : String} (named : nameOfLabel label ≠ "") :
    SmallName (nameOfLabel label) := by
  cases words : label.toList.dropWhile (!·.isAlphanum) with
  | nil => exact absurd (by rw [nameOfLabel, nameCharsOfLabel, words]) named
  | cons c cs =>
    have stop := List.head?_dropWhile_not (fun c : Char => !c.isAlphanum) label.toList
    rw [words] at stop
    have word : c.isAlphanum = true := by simpa using stop
    have rest := isSmall_restOfName false cs
    have chars : (nameOfLabel label).toList =
        (if c.isDigit then ['_'] else []) ++ c.toLower :: restOfName false cs := by
      rw [nameOfLabel, String.toList_ofList, nameCharsOfLabel_cons words]
    constructor
    · have others : (restOfName false cs).all isNameChar = true :=
        List.all_eq_true.mpr fun d member => (rest d member).1
      rw [isIdentifier, chars]
      by_cases digit : c.isDigit = true
      · have low : isNameStart '_' = true := by decide
        simp [digit, low, (isSmall_toLower word).1, others]
      · have starts : isNameStart c.toLower = true := by
          simp [isNameStart, isAlpha_toLower word digit]
        simp [digit, starts, others]
    · intro d member
      rw [chars, List.mem_append, List.mem_cons] at member
      obtain sign | rfl | later := member
      · split at sign
        · exact List.mem_singleton.mp sign ▸ isSmall_lowLine
        · cases sign
      · exact isSmall_toLower word
      · exact rest d later

/-! ## Free names -/

theorem freeName_eq_or (base : String) (taken : List String) :
    freeName base taken = base ∨ ∃ n, freeName base taken = numbered base n := by
  unfold freeName
  split
  · right
    cases found : ((List.range Settings.maxNameNumber).map fun i => numbered base (i + 1)).find?
        fun name => !taken.contains name with
    | none => exact ⟨_, rfl⟩
    | some name =>
      obtain ⟨i, -, rfl⟩ := List.mem_map.mp (List.mem_of_find?_eq_some found)
      exact ⟨_, rfl⟩
  · exact .inl rfl

/-- The search for a free name is in vain only if the name and its numbered forms are taken. -/
theorem freeName_mem_iff {base : String} {taken : List String} :
    freeName base taken ∈ taken ↔
      base ∈ taken ∧ ∀ n, 1 ≤ n → n ≤ Settings.maxNameNumber → numbered base n ∈ taken := by
  unfold freeName
  split
  · next present =>
    cases found : ((List.range Settings.maxNameNumber).map fun i => numbered base (i + 1)).find?
        fun name => !taken.contains name with
    | none =>
      have every : ∀ n, 1 ≤ n → n ≤ Settings.maxNameNumber → numbered base n ∈ taken := by
        intro n least most
        have listed : numbered base n ∈
            (List.range Settings.maxNameNumber).map fun i => numbered base (i + 1) :=
          List.mem_map.mpr ⟨n - 1, List.mem_range.mpr (by omega), by rw [Nat.sub_add_cancel least]⟩
        simpa using List.find?_eq_none.mp found _ listed
      have last := every Settings.maxNameNumber (by decide) (Nat.le_refl _)
      exact iff_of_true last ⟨List.contains_iff_mem.mp present, every⟩
    | some name =>
      have free : name ∉ taken := by simpa using List.find?_some found
      obtain ⟨i, within, rfl⟩ := List.mem_map.mp (List.mem_of_find?_eq_some found)
      have number := List.mem_range.mp within
      exact iff_of_false free fun full => free (full.2 (i + 1) (by omega) (by omega))
  · next absent =>
    have free : base ∉ taken := fun member => absent (List.contains_iff_mem.mpr member)
    exact iff_of_false free fun full => free full.1

/-- A name and all its numbered forms are in use, case aside. -/
def AllTaken (names : List VariableName) (base : String) : Prop :=
  isTaken names base = true ∧
    ∀ n, 1 ≤ n → n ≤ Settings.maxNameNumber → isTaken names (numbered base n) = true

namespace SmallName

variable {name : String} {names : List VariableName}

theorem isTaken_iff (here : SmallName name) :
    isTaken names name = true ↔ name ∈ names.map (·.folded) := by
  rw [isTaken, here.toLower_eq, List.contains_iff_mem]

theorem allTaken_iff (here : SmallName name) :
    AllTaken names name ↔ freeName name (names.map (·.folded)) ∈ names.map (·.folded) := by
  rw [freeName_mem_iff, AllTaken, here.isTaken_iff]
  simp only [(here.numbered _).isTaken_iff]

theorem of_freeName (here : SmallName name) (taken : List String) :
    SmallName (freeName name taken) := by
  obtain same | ⟨n, same⟩ := freeName_eq_or name taken
  · rwa [same]
  · rw [same]
    exact here.numbered n

/-- Of an identifier in lower case the check for outputs asks only whether it is taken. -/
theorem outputNameProblem?_eq_none_iff (here : SmallName name)
    {outputs fields : List VariableName} :
    outputNameProblem? outputs fields name = none ↔ ¬ isTaken (outputs ++ fields) name = true := by
  have both : isTaken (outputs ++ fields) name = (isTaken outputs name || isTaken fields name) := by
    simp [isTaken]
  unfold outputNameProblem?
  simp only [here.strip_eq, here.ne_empty, here.hasOutputPrefix_eq_false, here.identifier, both]
  cases isTaken outputs name <;> cases isTaken fields name <;> simp

theorem parameterNameProblem?_eq_none_iff (here : SmallName name) :
    parameterNameProblem? names name = none ↔ ¬ isTaken names name = true := by
  unfold parameterNameProblem?
  simp only [here.strip_eq, here.ne_empty, here.identifier]
  cases isTaken names name <;> simp

end SmallName

/-! ## Generated names -/

section Generated

variable {label : String} {names : List VariableName}

theorem generatedName_of_named (named : nameOfLabel label ≠ "") :
    generatedName label names = freeName (nameOfLabel label) (names.map (·.folded)) := by
  rw [generatedName, if_neg named]

theorem generatedName_eq_empty_iff : generatedName label names = "" ↔ nameOfLabel label = "" := by
  by_cases named : nameOfLabel label = ""
  · simp [generatedName, named]
  · have free := (smallName_nameOfLabel named).of_freeName (names.map (·.folded))
    rw [generatedName_of_named named]
    exact iff_of_false free.ne_empty named

theorem smallName_generatedName (named : nameOfLabel label ≠ "") :
    SmallName (generatedName label names) := by
  rw [generatedName_of_named named]
  exact (smallName_nameOfLabel named).of_freeName _

/-- A generated name is taken only if no name was left. -/
theorem isTaken_generatedName_iff (named : nameOfLabel label ≠ "") :
    isTaken names (generatedName label names) = true ↔ AllTaken names (nameOfLabel label) := by
  rw [(smallName_generatedName named).isTaken_iff, (smallName_nameOfLabel named).allTaken_iff,
    generatedName_of_named named]

end Generated

/-- The name of a label is the name of itself; it is empty exactly if the label has no ASCII letter
or digit, and an identifier in lower case otherwise.  The name that is generated beside the names of
outputs and fields, or beside those of the parameters of a function except perhaps one of them, is
empty in the same case; otherwise the check for outputs, or for parameters, accepts it beside the
same names, except exactly if the name of the label and all its numbered forms are taken. -/
theorem generated_names_are_usable (label : String) :
    nameOfLabel (nameOfLabel label) = nameOfLabel label ∧
    (nameOfLabel label = "" ↔ ∀ c ∈ label.toList, c.isAlphanum = false) ∧
    (nameOfLabel label ≠ "" → isIdentifier (nameOfLabel label) = true ∧
      Text.lower (nameOfLabel label) = nameOfLabel label) ∧
    (∀ outputs fields : List VariableName,
      (generatedName label (outputs ++ fields) = "" ↔ nameOfLabel label = "") ∧
      (nameOfLabel label ≠ "" →
        (outputNameProblem? outputs fields (generatedName label (outputs ++ fields)) = none ↔
          ¬ AllTaken (outputs ++ fields) (nameOfLabel label)))) ∧
    (∀ (parameters : List Parameter) (position : Option Nat),
      let names := (exceptAt position parameters).map (·.name)
      (generatedName label names = "" ↔ nameOfLabel label = "") ∧
      (nameOfLabel label ≠ "" →
        (parameterNameProblem? names (generatedName label names) = none ↔
          ¬ AllTaken names (nameOfLabel label)))) := by
  refine ⟨nameOfLabel_nameOfLabel label, nameOfLabel_eq_empty_iff, fun named => ?_,
    fun outputs fields => ⟨generatedName_eq_empty_iff, fun named => ?_⟩,
    fun parameters position => ⟨generatedName_eq_empty_iff, fun named => ?_⟩⟩
  · have here := smallName_nameOfLabel named
    exact ⟨here.identifier, here.lower_eq⟩
  · rw [(smallName_generatedName named).outputNameProblem?_eq_none_iff,
      isTaken_generatedName_iff named]
  · rw [(smallName_generatedName named).parameterNameProblem?_eq_none_iff,
      isTaken_generatedName_iff named]

/-! Two cases: a name of which one numbered form is taken, and one that is taken in all forms. -/

def lumberLabel : String := "2×4 Lumber - Länge"

def lumberOutputs : List VariableName := [⟨"_24_Lumber_LNGE", by decide⟩]

def lumberFields : List VariableName := [⟨"_24_lumber_lnge_1", by decide⟩]

/-- All forms of a name. -/
def crowd {base : String} (here : SmallName base) : List VariableName :=
  ⟨base, here.identifier⟩ :: (List.range Settings.maxNameNumber).map fun i =>
    ⟨numbered base (i + 1), (here.numbered (i + 1)).identifier⟩

theorem allTaken_crowd {base : String} (here : SmallName base) : AllTaken (crowd here) base := by
  refine ⟨here.isTaken_iff.mpr ?_, fun n least most => (here.numbered n).isTaken_iff.mpr ?_⟩
  · exact List.mem_map.mpr ⟨_, .head _, here.toLower_eq⟩
  · have listed : n - 1 ∈ List.range Settings.maxNameNumber := List.mem_range.mpr (by omega)
    refine List.mem_map.mpr ⟨_, .tail _ (List.mem_map_of_mem listed), ?_⟩
    rw [VariableName.folded, (here.numbered _).toLower_eq, Nat.sub_add_cancel least]

theorem named_wall : nameOfLabel "Wall" ≠ "" := by decide +kernel

/-- The name with the number two is free and accepted; beside all forms of a name there is none. -/
theorem generated_names_are_usable_lumber :
    nameOfLabel lumberLabel = "_24_lumber_lnge" ∧
    nameOfLabel "_24_lumber_lnge" = "_24_lumber_lnge" ∧
    generatedName lumberLabel (lumberOutputs ++ lumberFields) = "_24_lumber_lnge_2" ∧
    outputNameProblem? lumberOutputs lumberFields "_24_lumber_lnge_2" = none ∧
    outputNameProblem? (crowd (smallName_nameOfLabel named_wall)) []
      (generatedName "Wall" (crowd (smallName_nameOfLabel named_wall) ++ [])) ≠ none := by
  have name : nameOfLabel lumberLabel = "_24_lumber_lnge" := by decide +kernel
  have named : nameOfLabel lumberLabel ≠ "" := by decide +kernel
  have free : generatedName lumberLabel (lumberOutputs ++ lumberFields) = "_24_lumber_lnge_2" := by
    decide +kernel
  have second : isTaken (lumberOutputs ++ lumberFields)
      (numbered (nameOfLabel lumberLabel) 2) = false := by decide +kernel
  obtain ⟨again, -, -, outputs, -⟩ := generated_names_are_usable lumberLabel
  have accepted := (outputs lumberOutputs lumberFields).2 named
  rw [free] at accepted
  rw [name] at again
  refine ⟨name, again, free, accepted.mpr fun full => ?_, fun none => ?_⟩
  · have taken := full.2 2 (by decide) (by decide)
    rw [second] at taken
    cases taken
  · have refused := ((generated_names_are_usable "Wall").2.2.2.1
      (crowd (smallName_nameOfLabel named_wall)) []).2 named_wall
    apply refused.mp none
    rw [List.append_nil]
    exact allTaken_crowd _

end Costing

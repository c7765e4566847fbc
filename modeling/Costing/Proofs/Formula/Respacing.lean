import Costing.Proofs.Formula.Lexing

/-! # Texts through their tokens

The blank characters of a formula separate its tokens and mean nothing else: what is left without
them is the texts of the tokens, one behind the other (`Token.Reads.texts`), and the tokens stay the
same when their texts are put down with any blank characters between them
(`Token.reads_intercalate`).

A lexeme takes its own characters off the front of a text (`spells_of_lexeme?`).  Blank characters
are among them only where the lexeme is one, since no kind of token holds any
(`TokenShape.solid`). -/

namespace Costing.Formula

/-! ## The characters of tokens -/

theorem ExponentShape.solid {cs : List Char} (shape : ExponentShape cs) :
    ∀ c ∈ cs, Text.isBlank c = false := by
  cases shape with
  | none => nofun
  | some marked signed nonempty all =>
    intro c member
    simp only [List.cons_append, List.mem_cons, List.mem_append] at member
    obtain rfl | inSign | digit := member
    · obtain rfl | rfl := marked <;> decide
    · obtain rfl | rfl | rfl := signed
      · cases inSign
      · cases List.mem_singleton.mp inSign
        decide
      · cases List.mem_singleton.mp inSign
        decide
    · exact Text.isBlank_of_isDecimalDigit (all c digit)

theorem MantissaShape.solid {cs : List Char} (shape : MantissaShape cs) :
    ∀ c ∈ cs, Text.isBlank c = false := by
  cases shape with
  | whole nonempty all => exact fun c member => Text.isBlank_of_isDecimalDigit (all c member)
  | pointed nonempty all behind =>
    intro c member
    rw [List.mem_append, List.mem_cons] at member
    obtain digit | rfl | digit := member
    · exact Text.isBlank_of_isDecimalDigit (all c digit)
    · decide
    · exact Text.isBlank_of_isDecimalDigit (behind c digit)

/-- The rest of a name holds characters of identifiers and points. -/
theorem solid_spanName (cs : List Char) : ∀ c ∈ (spanName cs).1, Text.isBlank c = false := by
  fun_induction spanName cs with
  | case1 => exact List.forall_mem_nil _
  | case2 c cs starts more ih =>
    intro d member
    simp only [List.mem_cons] at member
    obtain rfl | rfl | later := member
    · decide
    · exact isBlank_of_isNameChar (isNameChar_of_isNameStart starts)
    · exact ih d later
  | case3 => exact List.forall_mem_nil _
  | case4 c cs noPoint char more ih =>
    intro d member
    obtain rfl | later := List.mem_cons.mp member
    · exact isBlank_of_isNameChar char
    · exact ih d later
  | case5 => exact List.forall_mem_nil _

namespace TokenShape

variable {t : Token}

/-- No token holds a blank character. -/
theorem solid (shape : TokenShape t) : ∀ c ∈ t.text.toList, Text.isBlank c = false := by
  cases shape with
  | number shape tail =>
    intro c member
    rw [Token.text, String.toList_ofList, List.mem_append] at member
    exact member.elim (shape.solid c) (tail.solid c)
  | @name first cs starts whole =>
    intro c member
    rw [Token.text, String.toList_ofList, List.mem_cons] at member
    obtain rfl | later := member
    · exact isBlank_of_isNameChar (isNameChar_of_isNameStart starts)
    · exact solid_spanName cs c (by rwa [whole])
  | symbol s =>
    intro c member
    rw [Token.text, String.toList_singleton, List.mem_singleton] at member
    subst member
    cases s <;> decide

theorem text_ne_empty (shape : TokenShape t) : t.text ≠ "" := by
  intro empty
  have lexeme := lexeme?_text shape
  rw [empty] at lexeme
  cases lexeme

end TokenShape

/-! ## The characters of lexemes -/

/-- The characters that a lexeme may consist of. -/
inductive Lexeme.Spells : Lexeme → List Char → Prop where
  | blank {c : Char} (blank : Text.isBlank c = true) : Spells .blank [c]
  | token (t : Token) : Spells (.token t) t.text.toList

/-- A lexeme takes its own characters off the front of a text. -/
theorem spells_of_lexeme? {cs rest : List Char} {l : Lexeme}
    (lexeme : lexeme? cs = some (l, rest)) :
    ∃ front, l.Spells front ∧ cs = front ++ rest := by
  unfold lexeme? at lexeme
  split at lexeme
  · cases lexeme
  · next c cs =>
    split at lexeme
    · next blank =>
      cases lexeme
      exact ⟨[c], .blank blank, rfl⟩
    · dsimp only at lexeme
      split at lexeme
      · cases lexeme
        refine ⟨_, .token _, ?_⟩
        rw [Token.text, String.toList_ofList, spanNumber_append]
      · split at lexeme
        · cases lexeme
          refine ⟨_, .token _, ?_⟩
          rw [Token.text, String.toList_ofList, List.cons_append, spanName_append]
        · obtain ⟨s, found, same⟩ := Option.map_eq_some_iff.mp lexeme
          cases same
          refine ⟨_, .token _, ?_⟩
          rw [Token.text, String.toList_singleton, Symbol.char_of_ofChar? found]
          rfl

/-! ## Whole texts -/

namespace Token

/-- The texts of the tokens are the text without its blank characters. -/
theorem Reads.texts {cs : List Char} {ts : List Token} (reads : Reads cs ts) :
    (ts.flatMap fun t => t.text.toList) = cs.filter fun c => !Text.isBlank c := by
  induction reads with
  | nil => rfl
  | blank lexeme _ ih =>
    obtain ⟨_, ⟨blank⟩, rfl⟩ := spells_of_lexeme? lexeme
    rw [ih, List.singleton_append, List.filter_cons_of_neg (by simp [blank])]
  | @token _ _ t _ lexeme _ _ ih =>
    have solid := (shape_of_lexeme? lexeme).solid
    obtain ⟨_, ⟨⟩, rfl⟩ := spells_of_lexeme? lexeme
    have kept : (t.text.toList.filter fun c => !Text.isBlank c) = t.text.toList :=
      List.filter_eq_self.mpr fun c member => by simp [solid c member]
    rw [List.flatMap_cons, ih, List.filter_append, kept]

/-- Tokens that stand alone stand side by side as well, with blank characters between them. -/
theorem reads_intercalate {separator : List Char} (nonempty : separator ≠ [])
    (blank : ∀ c ∈ separator, Text.isBlank c = true) {ts : List Token}
    (alone : ∀ t ∈ ts, Reads t.text.toList [t]) :
    Reads (separator.intercalate (ts.map fun t => t.text.toList)) ts := by
  induction ts with
  | nil => exact .nil
  | cons t ts ih =>
    have first := alone t (.head _)
    cases ts with
    | nil => simpa using first
    | cons next ts =>
      have others := ih fun u member => alone u (.tail _ member)
      -- the separator begins with a character that ends every token
      obtain ⟨c, behind, rfl⟩ := List.exists_cons_of_ne_nil nonempty
      have delimits := delimits_cons (.inl (blank c (.head _)))
      simpa using first.append (delimits _) (.blanks blank others)

end Token

/-- The texts of the tokens of a text, put together, are the text without its blank characters; each
of them holds a character; and joined by single spaces they are read as the same tokens. -/
theorem tokens_keep_text {text : String} {tokens : List Token}
    (read : Token.ofText text = .ok tokens) :
    String.join (tokens.map Token.text) =
        String.ofList (text.toList.filter fun c => !Text.isBlank c) ∧
      (∀ t ∈ tokens, t.text ≠ "") ∧
      Token.ofText (String.intercalate " " (tokens.map Token.text)) = .ok tokens := by
  have reads := Token.reads_of_ofChars read
  refine ⟨?_, fun t member => (reads.shape_of_mem member).1.text_ne_empty, ?_⟩
  · apply String.toList_inj.mp
    rw [String.toList_join, String.toList_ofList, List.flatMap_map]
    exact reads.texts
  · have space : " ".toList = [' '] := rfl
    have blank : ∀ c ∈ [' '], Text.isBlank c = true := List.forall_mem_singleton.mpr (by decide)
    rw [Token.ofText, Token.ofChars_eq_ok_iff, String.toList_intercalate, List.map_map, space]
    exact Token.reads_intercalate (List.cons_ne_nil _ _) blank
      fun t member => reads.text_of_mem member

def crowdedTokens : List Token :=
  [.number "1.", .name "a.b", .symbol .plus, .number "٣e5", .name "e"]

/-- A point, an exponent and a digit of another script stand beside tokens that they could belong
to. -/
theorem tokens_keep_text_crowded :
    Token.ofText "1.a.b\t+٣e5e" = .ok crowdedTokens ∧
      String.join (crowdedTokens.map Token.text) = "1.a.b+٣e5e" ∧
      (∀ t ∈ crowdedTokens, t.text ≠ "") ∧
      Token.ofText "1. a.b + ٣e5 e" = .ok crowdedTokens := by
  have read : Token.ofText "1.a.b\t+٣e5e" = .ok crowdedTokens :=
    toOption_eq_some_iff.mp (by decide +kernel)
  obtain ⟨joined, nonempty, reread⟩ := tokens_keep_text read
  exact ⟨read, joined.trans (by decide +kernel), nonempty, reread⟩

end Costing.Formula

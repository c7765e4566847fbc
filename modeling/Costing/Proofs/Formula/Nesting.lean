import Costing.Proofs.Formula.Parsing

/-! # What the limit on nesting decides

The room that is left for unaries only ever decides whether tokens are refused as nested too
deeply: a reading that is not refused for that gives the same in more room.  `Narrows` says this of
two readings, there is one lemma for each combinator of the parser, and `narrows_unaryAt` compares
any two amounts of room.  So the parser, which has a fixed room, either reads a phrase that fits
into some room or refuses it as nested too deeply (`ofTokens_of_derives`). -/

namespace Costing.Formula

open Costing.Formula.Parser

variable {α β : Type}

/-- The results are the same unless the first is the refusal of too deep nesting. -/
def Within (narrow wide : Except SyntaxFault α) : Prop :=
  narrow = .error .nestedTooDeeply ∨ narrow = wide

theorem Within.refl (x : Except SyntaxFault α) : Within x x := .inr rfl

theorem Within.bind {x y : Except SyntaxFault α} {f g : α → Except SyntaxFault β}
    (first : Within x y) (next : ∀ a, Within (f a) (g a)) : Within (x >>= f) (y >>= g) := by
  obtain refused | rfl := first
  · rw [refused]
    exact .inl rfl
  · cases x with
    | error fault => exact .refl _
    | ok a => exact next a

/-- The same readings, except that the first may refuse nesting that the second admits. -/
def Narrows (narrow wide : Reading) : Prop := ∀ ts, Within (narrow ts) (wide ts)

namespace Narrows

variable {narrow wide : Reading}

theorem chainAfter (narrows : Narrows narrow wide) (op? : Symbol → Option Operator) (rounds : Nat)
    (left : Tree) (ts : List Token) :
    Within (Parser.chainAfter op? narrow rounds left ts)
      (Parser.chainAfter op? wide rounds left ts) := by
  induction rounds generalizing left ts with
  | zero => exact .refl _
  | succ rounds ih =>
    simp only [Parser.chainAfter]
    split
    · split
      · exact (narrows _).bind fun read => ih _ _
      · exact .refl _
    · exact .refl _

theorem chain (narrows : Narrows narrow wide) (op? : Symbol → Option Operator) :
    Narrows (Parser.chain op? narrow) (Parser.chain op? wide) :=
  fun ts => (narrows ts).bind fun _ => narrows.chainAfter op? _ _ _

theorem expression (narrows : Narrows narrow wide) :
    Narrows (Parser.expression narrow) (Parser.expression wide) :=
  (narrows.chain multiplicative?).chain additive?

theorem argumentsFrom (narrows : Narrows narrow wide) (rounds : Nat) (ts : List Token) :
    Within (Parser.argumentsFrom narrow rounds ts) (Parser.argumentsFrom wide rounds ts) := by
  induction rounds generalizing ts with
  | zero => exact .refl _
  | succ rounds ih =>
    refine (narrows ts).bind fun read => ?_
    dsimp only
    split
    · exact (ih _).bind fun _ => .refl _
    · exact .refl _
    · exact .refl _

theorem arguments (narrows : Narrows narrow wide) (ts : List Token) :
    Within (Parser.arguments narrow ts) (Parser.arguments wide ts) := by
  simp only [Parser.arguments]
  split
  · exact .refl _
  · exact narrows.argumentsFrom _ _

theorem primary (narrows : Narrows narrow wide) :
    Narrows (Parser.primary narrow) (Parser.primary wide) := by
  intro ts
  simp only [Parser.primary]
  split
  · exact .refl _
  · split
    · exact .refl _
    · exact (narrows.expression.arguments _).bind fun _ => .refl _
  · exact .refl _
  · exact (narrows.expression _).bind fun _ => .refl _
  · exact .refl _

theorem power (narrows : Narrows narrow wide) :
    Narrows (Parser.power narrow) (Parser.power wide) := by
  refine fun ts => (narrows.primary ts).bind fun read => ?_
  dsimp only
  split
  · exact (narrows _).bind fun _ => .refl _
  · exact .refl _

end Narrows

theorem narrows_unaryAt {room wider : Nat} (fits : room ≤ wider) :
    Narrows (unaryAt room) (unaryAt wider) := by
  induction room generalizing wider with
  | zero => exact fun _ => .inl rfl
  | succ room ih =>
    obtain ⟨wider, rfl⟩ := Nat.exists_eq_add_of_le' (Nat.le_of_add_left_le fits)
    have narrows := ih (Nat.le_of_succ_le_succ fits)
    intro ts
    simp only [unaryAt]
    split
    · exact (narrows _).bind fun _ => .refl _
    · exact narrows _
    · exact narrows.power _

/-- An expression that fits into some room is read by the parser, or nested too deeply for it. -/
theorem ofTokens_of_derives {room : Nat} {t : Tree} {ts : List Token}
    (derivation : Derives room (.expression t) ts) :
    Parser.ofTokens ts = .ok t ∨ Parser.ofTokens ts = .error .nestedTooDeeply := by
  have narrows := narrows_unaryAt (Nat.le_max_left Settings.maxNesting room)
  have wide := expression_of_derives (derivation.mono (Nat.le_max_right Settings.maxNesting room))
  obtain ⟨first, others, rfl, _⟩ := head_ne_closing derivation
  obtain refused | same := narrows.expression (first :: others)
  · right
    simp only [Parser.ofTokens, refused]
    rfl
  · left
    simp only [Parser.ofTokens, same, wide]
    rfl

end Costing.Formula

import Costing.Proofs.Formula.Parsing
import Costing.Proofs.Formula.Scope

/-! # The scan of a formula

`Mention.scan` looks at the tokens of a text one by one, with the token behind a name as its only
context, and `Tree.parse` makes a tree of them.  Where there is a tree, both find the same names
and calls: `yields_of_derives` shows it for the phrases of the grammar, whose tokens mention what
the trees of the phrase mention, one tree after the other.

A phrase is scanned in front of tokens that do not begin with an opening parenthesis: behind one,
the last name of the phrase would be a call. -/

namespace Costing.Formula

/-- What a node of a tree mentions by itself. -/
def Tree.mention? : Tree → Option Mention
  | .name n => some ⟨n, (splitName n).1, (splitName n).2, false⟩
  | .call function _ => some ⟨function, function, none, true⟩
  | _ => none

/-- What some trees mention, each node before those in it, from left to right. -/
def mentions (trees : List Tree) : List Mention := (Tree.nodesOf trees).filterMap Tree.mention?

theorem mentions_append (trees others : List Tree) :
    mentions (trees ++ others) = mentions trees ++ mentions others := by
  have nodes : Tree.nodesOf (trees ++ others) = Tree.nodesOf trees ++ Tree.nodesOf others := by
    induction trees with
    | nil => rfl
    | cons t trees ih => rw [List.cons_append, Tree.nodesOf, Tree.nodesOf, ih, List.append_assoc]
  rw [mentions, nodes, List.filterMap_append]
  rfl

/-- An operator mentions nothing. -/
theorem mentions_binary (op : Operator) (left right : Tree) :
    mentions [.binary op left right] = mentions [left, right] := by
  rw [mentions, Tree.nodesOf, Tree.nodes, List.cons_append, List.filterMap_cons_none rfl]
  simp [mentions, Tree.nodesOf]

theorem mentions_call (function : String) (args : List Tree) :
    mentions [.call function args] = ⟨function, function, none, true⟩ :: mentions args := by
  simp [mentions, Tree.nodesOf, Tree.nodes, Tree.mention?]

/-! ## Names -/

theorem plain_of_points {name : String} (plain : Token.points name = 0) :
    '.' ∉ name.toList := List.count_eq_zero.mp plain

/-- Behind the only point of a name there is no other one, so the scan has its whole property. -/
theorem ofName_of_allowed {name : String} (allowed : (Token.name name).Allowed)
    {after : List Token} (apart : Stops [.opening] after) :
    Mention.ofName name after = ⟨name, (splitName name).1, (splitName name).2, false⟩ := by
  have noCall : (after.head? == some (.symbol .opening)) = false := by
    rw [beq_eq_false_iff_ne]
    exact apart .opening (.head _)
  have whole : (splitName name).2.map (fun p => (splitName p).1) = (splitName name).2 := by
    cases split : splitName name with
    | mk base property? =>
      cases property? with
      | none => rfl
      | some property =>
        obtain ⟨rfl, -⟩ := eq_of_splitName split
        have single := allowed _ rfl
        have plain : '.' ∉ property.toList := by
          apply plain_of_points
          simp [Token.points] at single ⊢
          omega
        simp [splitName_of_plain plain]
  simp only [Mention.ofName, noCall, whole]

theorem ofName_of_call {name : String} (plain : Token.points name = 0) (rest : List Token) :
    Mention.ofName name (.symbol .opening :: rest) = ⟨name, name, none, true⟩ := by
  simp [Mention.ofName, splitName_of_plain (plain_of_points plain)]

/-! ## Phrases -/

/-- The scan finds what the trees mention in the tokens, whatever follows these. -/
def Yields (trees : List Tree) (ts : List Token) : Prop :=
  ∀ after, Stops [.opening] after →
    Mention.ofTokens (ts ++ after) = mentions trees ++ Mention.ofTokens after

/-- Between two phrases stands a symbol, which keeps the first from becoming a call. -/
theorem Yields.join {trees others : List Tree} {ts us : List Token} {s : Symbol}
    (first : Yields trees ts) (second : Yields others us) (noCall : s ≠ .opening) :
    Yields (trees ++ others) (ts ++ .symbol s :: us) := by
  intro after apart
  have outside : s ∉ [.opening] := fun member => noCall (List.mem_singleton.mp member)
  calc Mention.ofTokens ((ts ++ .symbol s :: us) ++ after)
      = Mention.ofTokens (ts ++ .symbol s :: (us ++ after)) := by simp
    _ = mentions trees ++ Mention.ofTokens (.symbol s :: (us ++ after)) :=
        first _ (stops_cons outside _)
    _ = mentions trees ++ Mention.ofTokens (us ++ after) := rfl
    _ = mentions (trees ++ others) ++ Mention.ofTokens after := by
        rw [second after apart, mentions_append, List.append_assoc]

theorem Yields.binary {op : Operator} {left right : Tree} {ts us : List Token} {s : Symbol}
    (before : Yields [left] ts) (after : Yields [right] us) (noCall : s ≠ .opening) :
    Yields [.binary op left right] (ts ++ .symbol s :: us) := by
  rw [Yields, mentions_binary]
  exact before.join after noCall

/-- Inside parentheses a phrase is followed by the closing one. -/
theorem Yields.closed {trees : List Tree} {ts : List Token} (inner : Yields trees ts)
    (after : List Token) : Mention.ofTokens (ts ++ [.symbol .closing] ++ after) =
      mentions trees ++ Mention.ofTokens after := by
  rw [List.append_assoc]
  exact inner _ (stops_cons (s := .closing) (by decide) after)

theorem yields_of_derives {room : Nat} {phrase : Phrase} {ts : List Token}
    (derivation : Derives room phrase ts) (allowed : ∀ t ∈ ts, t.Allowed) :
    Yields phrase.trees ts := by
  induction derivation with
  | expression _ ih | term _ ih | unsigned _ ih | base _ ih | lastArgument _ ih => exact ih allowed
  | sum operator _ _ ihBefore ihAfter | product operator _ _ ihBefore ihAfter =>
    obtain ⟨before, after⟩ := forall_sides allowed
    exact (ihBefore before).binary (ihAfter after) (by cases operator <;> nofun)
  | raised _ _ ihBelow ihAbove =>
    obtain ⟨below, above⟩ := forall_sides allowed
    exact (ihBelow below).binary (ihAbove above) nofun
  | nextArgument _ _ ihFirst ihFurther =>
    obtain ⟨first, further⟩ := forall_sides allowed
    exact (ihFirst first).join (ihFurther further) nofun
  | negative _ ih | positive _ ih => exact ih fun t member => allowed t (.tail _ member)
  | number => exact fun _ _ => rfl
  | name =>
    intro after apart
    show Mention.ofName _ after :: _ = _
    rw [ofName_of_allowed (allowed _ (.head _)) apart]
    rfl
  | emptyCall plain =>
    intro after apart
    show Mention.ofName _ (.symbol .opening :: _) :: _ = _
    rw [ofName_of_call plain]
    rfl
  | @call room name args ts plain _ ih =>
    intro after apart
    have inner := ih fun t member => allowed t (by simp [member])
    show Mention.ofName name (.symbol .opening :: _) :: Mention.ofTokens _ = _
    rw [ofName_of_call plain, Phrase.trees, mentions_call, List.cons_append]
    exact congrArg _ (inner.closed after)
  | group _ ih =>
    intro after apart
    exact (ih fun t member => allowed t (by simp [member])).closed after

/-- The scan of a formula that parses finds the names and calls of its tree, node by node. -/
theorem scan_of_parse {formula : String} {t : Tree} (parsed : Tree.parse formula = .ok t) :
    Mention.scan formula = t.nodes.filterMap Tree.mention? := by
  obtain ⟨ts, tokens, read, _⟩ := parse_eq_ok_iff.mp parsed
  rw [Token.ofText, Text.strip, String.toList_ofList] at tokens
  have reads := Token.reads_of_ofChars tokens
  have yields : Yields [t] ts := yields_of_derives (ofTokens_eq_ok_iff.mp read)
    fun t member => (reads.shape_of_mem member).2
  have scanned := yields [] (stops_nil _)
  rw [List.append_nil] at scanned
  rw [Mention.scan, Token.scanChars_of_reads (Token.reads_strip_iff.mp reads), scanned]
  simp [mentions, Tree.nodesOf, Mention.ofTokens]

/-- The name in front of the parenthesis is a call, and the letter in a number is no name. -/
theorem scan_of_parse_call : ∃ t, Tree.parse " max(wall.area, -max) ^ 1e3 " = .ok t ∧
    t.nodes.filterMap Tree.mention? =
      [⟨"max", "max", none, true⟩, ⟨"wall.area", "wall", some "area", false⟩,
        ⟨"max", "max", none, false⟩] ∧
    Mention.scan " max(wall.area, -max) ^ 1e3 " = t.nodes.filterMap Tree.mention? := by
  have checked : ((Tree.parse " max(wall.area, -max) ^ 1e3 ").map fun t =>
      t.nodes.filterMap Tree.mention? == [⟨"max", "max", none, true⟩,
        ⟨"wall.area", "wall", some "area", false⟩, ⟨"max", "max", none, false⟩]).toOption =
      some true := by
    decide +kernel
  obtain ⟨t, parsed, same⟩ := exists_ok_of_check checked
  exact ⟨t, parsed, beq_iff_eq.mp same, scan_of_parse parsed⟩

end Costing.Formula

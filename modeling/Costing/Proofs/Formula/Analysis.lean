import Costing.Formula.Analysis
import Costing.Proofs.Formula.Acceptance
import Costing.Proofs.Formula.Mention

/-! # What the analysis of a formula says

Analysis takes the names of a text from its tokens and puts each into a group; validation takes
them from the nodes of a tree and asks of each whether it means something.  Two facts tie them
together:

* every name of a text is in some group of its analysis, and nothing else is
  (`mem_names_analyze`).  The calls of shared functions are the difficult group: of a text that
  parses they are taken from the tree, which has the calls that the tokens have;
* a name that passes validation is not put among the unknown ones (`group_ne_unknown`), although
  the two look through fields, items, constants and functions in different orders. -/

namespace Costing.Formula

/-- All names of an analysis, group by group. -/
def Analysis.names (a : Analysis) : List String :=
  a.values ++ a.outputs ++ a.unknown ++ a.fieldProperties.map (·.name) ++
    a.materialProperties.map (·.name) ++ a.laborProperties.map (·.name) ++ a.math ++
    a.calls.map (·.function)

/-! ## Calls -/

/-- A formula that parses is scanned as its tree mentions names. -/
theorem scan_eq_mentions {formula : String} {t : Tree} (parsed : Tree.parse formula = .ok t) :
    Mention.scan formula = mentions [t] := by
  obtain ⟨ts, tokens, read, -⟩ := parse_eq_ok_iff.mp parsed
  rw [Token.ofText, Text.strip, String.toList_ofList] at tokens
  have reads := Token.reads_of_ofChars tokens
  have yields : Yields [t] ts := yields_of_derives (ofTokens_eq_ok_iff.mp read)
    fun t member => (reads.shape_of_mem member).2
  rw [Mention.scan, Token.scanChars_of_reads (Token.reads_strip_iff.mp reads)]
  simpa [Mention.ofTokens] using yields [] (stops_nil _)

theorem mem_mentions {t : Tree} {m : Mention} :
    m ∈ mentions [t] ↔ ∃ node ∈ t.nodes, node.mention? = some m := by
  simp [mentions, Tree.nodesOf]

theorem exists_call_mention_iff {t : Tree} {function : String} :
    (∃ m ∈ mentions [t], m.isCall = true ∧ m.text = function) ↔
      ∃ args, (function, args) ∈ t.calls := by
  simp only [mem_mentions, Tree.calls, List.mem_filterMap]
  constructor
  · rintro ⟨m, ⟨node, member, mentioned⟩, call, rfl⟩
    cases node <;> cases mentioned
    · cases call
    · exact ⟨_, _, member, rfl⟩
  · rintro ⟨args, node, member, called⟩
    cases node <;> cases called
    exact ⟨_, ⟨_, member, rfl⟩, rfl, rfl⟩

/-! ## Groups -/

/-- What is made of some items is found by its name without regard to repetitions. -/
theorem mem_map_eraseDups {α β : Type} [DecidableEq β] {items : List α} {make : α → β}
    {key : β → String} {name : String} :
    name ∈ (items.map make).eraseDups.map key ↔ ∃ a ∈ items, key (make a) = name := by
  simp [List.mem_eraseDups]

namespace Vocabulary

variable {v : Vocabulary} {text name : String} {ms : List Mention}

theorem mem_namesIn {g : NameGroup} :
    name ∈ v.namesIn g ms ↔ ∃ m ∈ ms, v.group m = g ∧ m.text = name := by
  simp [namesIn, List.mem_eraseDups, and_assoc]

theorem mem_referencesIn {g : NameGroup} :
    name ∈ (v.referencesIn g ms).map (·.name) ↔ ∃ m ∈ ms, v.group m = g ∧ m.text = name := by
  simp [referencesIn, mem_map_eraseDups, and_assoc]

/-- The calls of shared functions, those among them that bear the name of a built-in one. -/
theorem mem_callsIn :
    name ∈ (v.callsIn text (Mention.scan text)).map (·.function) ↔
      v.book.functions.contains name = true ∧
        ∃ m ∈ Mention.scan text, m.isCall = true ∧ m.text = name := by
  unfold callsIn
  cases parsed : Tree.parse text with
  | error fault =>
    simp only [mem_map_eraseDups, List.mem_filter, Bool.and_eq_true]
    grind
  | ok t =>
    rw [scan_eq_mentions parsed, exists_call_mention_iff]
    simp only [mem_map_eraseDups, List.mem_filter]
    grind

theorem call_of_group {m : Mention} (shared : v.group m = .sharedCall) :
    v.book.functions.contains m.text = true ∧ m.isCall = true := by
  unfold group groupCall groupDotted groupPlain at shared
  grind

theorem mem_names_analyze :
    name ∈ (v.analyze text).names ↔ name ∈ (Mention.scan text).map (·.text) := by
  simp only [Analysis.names, analyze, List.mem_append, mem_namesIn, mem_referencesIn, mem_callsIn]
  rw [List.mem_map]
  constructor
  · grind
  · rintro ⟨m, member, rfl⟩
    cases grouped : v.group m with
    -- the one group that the calls of the text are listed for, and not its names
    | sharedCall =>
      obtain ⟨registered, call⟩ := call_of_group grouped
      exact .inr ⟨registered, m, member, call, rfl⟩
    | _ => grind

end Vocabulary

/-! ## Names that pass validation -/

/-- Two vocabularies in which the same names are available and mean the same. -/
structure Vocabulary.SameNames (v w : Vocabulary) : Prop where
  fields : w.fields = v.fields
  book : w.book = v.book
  available : ∀ name, w.available.contains name = v.available.contains name

theorem isSome_find? {c : Catalog} {name : String} :
    (c.find? name).isSome = ((c.get? .material name).isSome || (c.get? .labor name).isSome) := by
  unfold Catalog.find?
  cases c.get? .material name <;> simp

namespace Vocabulary

variable {v w : Vocabulary}

theorem groupPlain_ne_unknown (same : v.SameNames w) {name : String} {warning : Option Warning}
    (checked : v.checkPlain name = .ok warning) : w.groupPlain name ≠ .unknown := by
  unfold checkPlain at checked
  simp only [groupPlain, same.available, same.book]
  grind

/-- Validation looks for a field and then for an item of either half, analysis for a field that
selects items, then for a material and then for labor. -/
theorem groupDotted_ne_unknown (same : v.SameNames w) {base property name : String}
    (checked : v.checkDotted base property name = .ok ()) :
    w.groupDotted name base ≠ .unknown := by
  unfold checkDotted at checked
  simp only [groupDotted, same.available, same.book, same.fields]
  grind [isSome_find?, Field.isCatalog]

theorem groupCall_ne_unknown (same : v.SameNames w) {function source : String} {count : Nat}
    (checked : v.checkCall function count source = .ok ()) :
    w.groupCall function ≠ .unknown := by
  unfold checkCall at checked
  simp only [groupCall, same.book, Table.contains]
  grind

theorem group_ne_unknown (same : v.SameNames w) {node : Tree} {m : Mention}
    (mentioned : node.mention? = some m) {warning : Option Warning}
    (checked : v.checkNode node = .ok warning) : w.group m ≠ .unknown := by
  cases node with
  | name n =>
    cases mentioned
    simp only [checkNode, checkName] at checked
    cases split : splitName n with
    | mk base property? =>
      cases property? with
      | none =>
        simp only [split] at checked
        simpa [group, split] using groupPlain_ne_unknown same checked
      | some property =>
        simp only [split, map_eq_ok_iff] at checked
        obtain ⟨⟨⟩, known, -⟩ := checked
        simpa [group, split] using groupDotted_ne_unknown same known
  | call function args =>
    cases mentioned
    obtain ⟨⟨⟩, known, -⟩ := map_eq_ok_iff.mp checked
    simpa [group] using groupCall_ne_unknown same known
  | number text => cases mentioned
  | negate operand => cases mentioned
  | binary op left right => cases mentioned

theorem unknown_of_isAccepted (same : v.SameNames w) {formula : String}
    (accepted : (v.validate formula).isAccepted = true) : (w.analyze formula).unknown = [] := by
  obtain ⟨t, parsed, checked⟩ := parse_of_isAccepted accepted
  rw [List.eq_nil_iff_forall_not_mem]
  intro name found
  obtain ⟨m, scanned, unknown, -⟩ := mem_namesIn.mp found
  rw [scan_eq_mentions parsed] at scanned
  obtain ⟨node, member, mentioned⟩ := mem_mentions.mp scanned
  obtain ⟨warning, known⟩ := checked node member
  exact group_ne_unknown same mentioned known unknown

/-- The outputs that a formula sees under their keys can as well be given as available names. -/
theorem sameNames_ofLists (available : List String) (fields : List Field) (outputs : List Output)
    (book : Pricebook) :
    (ofLists available fields outputs false book).SameNames
      (ofLists (available ++ outputs.map (·.key)) fields [] false book) where
  fields := rfl
  book := rfl
  available name := by
    rw [Bool.eq_iff_iff]
    simp only [ofLists, List.contains_iff_mem, List.mem_append, ← Table.contains_iff,
      Table.contains_ofList]
    simp only [outputEntries, Bool.false_eq_true, if_false, List.flatMap_nil, List.map_nil,
      List.not_mem_nil, or_false, List.mem_map, List.mem_flatMap, List.mem_singleton]
    grind

end Vocabulary

/-- The names in the groups of the analysis of a text, half typed or not, are exactly the names that
a scan finds in it.  And of a formula that is accepted, given the outputs that it sees, the analysis
with the keys of these outputs among the available names knows every name. -/
theorem analysis_of_formula :
    (∀ (v : Vocabulary) (text name : String),
      name ∈ (v.analyze text).names ↔ name ∈ (Mention.scan text).map (·.text)) ∧
    ∀ (available : List String) (fields : List Field) (outputs : List Output) (book : Pricebook)
      (formula : String),
      ((Vocabulary.ofLists available fields outputs false book).validate formula).isAccepted =
        true →
      ((Vocabulary.ofLists (available ++ outputs.map (·.key)) fields [] false book).analyze
        formula).unknown = [] :=
  ⟨fun _ _ _ => Vocabulary.mem_names_analyze, fun available fields outputs book _ accepted =>
    Vocabulary.unknown_of_isAccepted (Vocabulary.sameNames_ofLists available fields outputs book)
      accepted⟩

/-- The weight of a material and a shared function of an output, all of them known. -/
theorem analysis_of_formula_timber :
    ((Vocabulary.ofLists ["wood"] [] timberOutputs false timberBook).validate
        "twice(out.area) + wood.weight").isAccepted = true ∧
      ((Vocabulary.ofLists ["wood"] [] [] false timberBook).analyze
        "twice(out.area) + wood.weight").unknown = ["out.area"] ∧
      ((Vocabulary.ofLists (["wood"] ++ timberOutputs.map (·.key)) [] [] false timberBook).analyze
        "twice(out.area) + wood.weight").unknown = [] := by
  have accepted : ((Vocabulary.ofLists ["wood"] [] timberOutputs false timberBook).validate
      "twice(out.area) + wood.weight").isAccepted = true := by decide +kernel
  exact ⟨accepted, by decide +kernel, analysis_of_formula.2 _ _ _ _ _ accepted⟩

end Costing.Formula

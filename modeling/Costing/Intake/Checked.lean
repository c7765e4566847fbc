import Costing.Decimal.Reading
import Costing.Json
import Costing.Model.Item
import Costing.Table
import Costing.Units

/-! # Checked reading of documents

Requests are read from JSON documents.  A document that does not fit is answered with the list
of everything that is wrong with it, each issue with the path to the part at fault.  `Checked`
holds either a value or such a list, and its `<*>` joins the issues of independent parts in
their order; rules that concern a whole record run only when all its parts are in order. -/

namespace Costing.Intake

/-- Why a record whose parts are well formed is refused all the same. -/
inductive Rejection where
  | reservedName
  | notAnIdentifier
  | unknownUnit (symbol : String)
  | propertyNotNumeric (name : String)
  | laborPropertyNotNumeric (name : String)
  | repeatedParameter (name : String)
  | unitOnField (name : String) (kind : FieldType)
  | repeatedName (name moduleName : String)
deriving DecidableEq

namespace Rejection

def message : Rejection → String
  | .reservedName => "Variable name cannot start with 'out.'"
  | .notAnIdentifier =>
    "Variable name must start with a letter or underscore and contain " ++
      "only letters, numbers, and underscores"
  | .unknownUnit symbol => (UnitFault.unknown symbol).message
  | .propertyNotNumeric name => s!"Property '{name}' value must be numeric"
  | .laborPropertyNotNumeric name => s!"Labor property '{name}' must be numeric"
  | .repeatedParameter name => s!"Parameter name must be unique: {name}"
  | .unitOnField name kind => s!"Field '{name}' of type {kind.word} cannot carry a unit"
  | .repeatedName name moduleName =>
    s!"Variable name '{name}' is used more than once in module '{moduleName}'"

end Rejection

/-- What is wrong with a part of a document. -/
inductive Problem where
  | missing | notText | notList | notTable | notRecord
  | notNumber | noNumeral
  | notFlag | noFlagWord
  | notWhole | noWholeNumeral | fractional | notFinite
  | notListed | notKind
  | rejected (reason : Rejection)
deriving DecidableEq

namespace Problem

def word : Problem → String
  | .missing => "missing"
  | .notText => "string_type"
  | .notList => "list_type"
  | .notTable => "dict_type"
  | .notRecord => "model_type"
  | .notNumber => "float_type"
  | .noNumeral => "float_parsing"
  | .notFlag => "bool_type"
  | .noFlagWord => "bool_parsing"
  | .notWhole => "int_type"
  | .noWholeNumeral => "int_parsing"
  | .fractional => "int_from_float"
  | .notFinite => "finite_number"
  | .notListed => "literal_error"
  | .notKind => "enum"
  | .rejected _ => "value_error"

end Problem

/-- A problem and the path to it. -/
structure Issue where
  path : List String
  problem : Problem
deriving DecidableEq

/-- A value, or everything that is wrong with the document it should come from. -/
inductive Checked (α : Type) where
  | valid (value : α)
  | invalid (issues : List Issue)

namespace Checked

variable {α β : Type}

instance : Applicative Checked where
  pure := .valid
  seq f x :=
    match f, x () with
    | .valid f, .valid x => .valid (f x)
    | .valid _, .invalid issues => .invalid issues
    | .invalid issues, .valid _ => .invalid issues
    | .invalid first, .invalid second => .invalid (first ++ second)

/-- A rule for a value whose parts are in order. -/
def andThen (x : Checked α) (rule : α → Checked β) : Checked β :=
  match x with
  | .valid value => rule value
  | .invalid issues => .invalid issues

def problem (p : Problem) : Checked α := .invalid [⟨[], p⟩]

def reject (reason : Rejection) : Checked α := problem (.rejected reason)

/-- The same with a step in front of every path. -/
def under (step : String) : Checked α → Checked α
  | .valid value => .valid value
  | .invalid issues => .invalid (issues.map fun i => { i with path := step :: i.path })

/-- The values of a list of checks, or all their issues. -/
def all : List (Checked α) → Checked (List α)
  | [] => .valid []
  | x :: rest => List.cons <$> x <*> all rest

end Checked

/-! ## Simple values -/

abbrev Reader (α : Type) := Json → Checked α

def text : Reader String
  | .text s => .valid s
  | _ => .problem .notText

/-- Something, or nothing where the document has `null`. -/
def optional {α : Type} (read : Reader α) : Reader (Option α)
  | .null => .valid none
  | doc => some <$> read doc

/-- The machine number nearest to a whole number, if the range allows for it. -/
def ofWhole? (n : Int) : Option Float :=
  let x := Float.ofInt n
  if x.isFinite then some x else none

/-- A text without the low lines that group its digits: none at either end, no two in a row. -/
def ungrouped? (cs : List Char) : Option (List Char) :=
  let apart := (cs.zip (cs.drop 1)).all fun p => !(p.1 == '_' && p.2 == '_')
  if cs.head? == some '_' || cs.getLast? == some '_' || !apart then none
  else some (cs.filter (· != '_'))

/-- The number in a text of ASCII characters. -/
def ofNumeral? (s : String) : Option Float :=
  let plain := fun cs : List Char =>
    if cs.all (·.toNat < 128) then Decimal.signed? cs else none
  (plain (Decimal.unpad s.toList)).or ((ungrouped? s.toList).bind plain)

/-- A number: truth values count as one and zero, and a text may hold a number. -/
def number : Reader Float
  | .flag b => .valid (if b then 1 else 0)
  | .real x => .valid x
  | .whole n => match ofWhole? n with | some x => .valid x | none => .problem .notNumber
  | .text s => match ofNumeral? s with | some x => .valid x | none => .problem .noNumeral
  | _ => .problem .notNumber

/-- The truth value that a word stands for, in any case. -/
def flagWord? (s : String) : Option Bool :=
  let word := s.toLower
  if ["0", "off", "f", "false", "n", "no"].contains word then some false
  else if ["1", "on", "t", "true", "y", "yes"].contains word then some true
  else none

/-- A truth value: one and zero count, and so do a few words. -/
def flag : Reader Bool
  | .flag b => .valid b
  | .whole n =>
    if n = 0 then .valid false else if n = 1 then .valid true
    else if (ofWhole? n).isSome then .problem .noFlagWord else .problem .notFlag
  | .real x =>
    if x == 0 then .valid false else if x == 1 then .valid true
    else match Decimal.Binary.ofFloat? x with
      | some b => if b.isWhole then .problem .noFlagWord else .problem .notFlag
      | none => .problem .notFlag
  | .text s => match flagWord? s with | some b => .valid b | none => .problem .noFlagWord
  | _ => .problem .notFlag

/-- The whole number in a text: a sign, grouped digits, and zeros behind a point. -/
def ofWholeNumeral? (s : String) : Option Int := do
  let signed := Decimal.spanSign (Decimal.unpad s.toList)
  let digits := signed.2.takeWhile (· != '.')
  let tail := (signed.2.dropWhile (· != '.')).drop 1
  let digits ← ungrouped? digits
  if digits.isEmpty || !digits.all Char.isDigit || !tail.all (· == '0') then none
  else
    let n : Int := Decimal.ofDigits (digits.map (·.toNat - '0'.toNat))
    some (if signed.1 then -n else n)

def wholeNumber : Reader Int
  | .flag b => .valid (if b then 1 else 0)
  | .whole n => .valid n
  | .real x =>
    match Decimal.Binary.ofFloat? x with
    | some b => if b.isWhole then .valid b.floor else .problem .fractional
    | none => .problem .notFinite
  | .text s => match ofWholeNumeral? s with | some n => .valid n | none => .problem .noWholeNumeral
  | _ => .problem .notWhole

def oneOf {α : Type} (choices : List α) (word : α → String) : Reader α
  | .text s =>
    match choices.find? (word · == s) with
    | some c => .valid c
    | none => .problem .notListed
  | _ => .problem .notListed

/-- The value of a field.  Numbers become machine numbers, texts are never read as numbers. -/
def fieldValue : Reader FieldValue
  | .null => .valid .blank
  | .flag b => .valid (.flag b)
  | .real x => .valid (.number x)
  | .text s => .valid (.text s)
  | .whole n => match ofWhole? n with | some x => .valid (.number x) | none => noValue
  | _ => noValue
where
  /-- One issue for each kind of value that might have stood here. -/
  noValue : Checked FieldValue :=
    .invalid [⟨["bool"], .notFlag⟩, ⟨["float"], .notNumber⟩, ⟨["str"], .notText⟩]

/-- A value of a field, or a broken link with its reason and the value stored behind it. -/
def fieldInput (doc : Json) : Checked FieldInput :=
  match doc.entry? "broken" with
  | some reason =>
    FieldInput.broken <$> (BrokenReason.ofWord <$> text reason) <*>
      fieldValue ((doc.entry? "fallback").getD .null)
  | none => FieldInput.given <$> fieldValue doc

/-! ## Lists, tables and records -/

def listOf {α : Type} (read : Reader α) : Reader (List α)
  | .list items =>
    Checked.all (items.zipIdx.map fun (item, i) => (read item).under (toString i))
  | _ => .problem .notList

def tableOf {α : Type} (read : Reader α) : Reader (Table String α)
  | .object entries =>
    Table.ofList <$>
      Checked.all (entries.map fun (key, doc) => (Prod.mk key <$> read doc).under key)
  | _ => .problem .notTable

/-- A record: `read` receives the object that holds its entries. -/
def record {α : Type} (read : Json → Checked α) : Reader α
  | .object entries => read (.object entries)
  | _ => .problem .notRecord

def entry {α : Type} (doc : Json) (key : String) (read : Reader α) : Checked α :=
  match doc.entry? key with
  | some part => (read part).under key
  | none => (Checked.problem .missing).under key

def entryOr {α : Type} (doc : Json) (key : String) (absent : α) (read : Reader α) : Checked α :=
  match doc.entry? key with
  | some part => (read part).under key
  | none => .valid absent

/-- An entry that may be absent or `null`. -/
def entry? {α : Type} (doc : Json) (key : String) (read : Reader α) : Checked (Option α) :=
  entryOr doc key none (optional read)

/-! ## Names and units -/

/-- A name.  Blank characters around it are dropped. -/
def variableName (doc : Json) : Checked VariableName :=
  (text doc).andThen fun s =>
    let stripped := Text.strip s
    if hasOutputPrefix stripped then .reject .reservedName
    else match VariableName.ofText? stripped with
      | some name => .valid name
      | none => .reject .notAnIdentifier

/-- The category that goes with a unit; without a unit the stated category stays. -/
def categoryFor (symbol category : Option String) : Checked (Option String) :=
  match symbol with
  | none => .valid category
  | some s =>
    if s = "" then .valid category
    else match Units.find? s with
      | some u => .valid (some u.category)
      | none => .reject (.unknownUnit s)

/-- The first name that repeats an earlier one, case aside. -/
def repeated? : List String → List VariableName → Option VariableName
  | _, [] => none
  | seen, n :: rest => if n.folded ∈ seen then some n else repeated? (n.folded :: seen) rest

theorem nodup_of_repeated?_eq_none {seen : List String} {names : List VariableName}
    (h : repeated? seen names = none) :
    (names.map VariableName.folded).Nodup ∧ ∀ n ∈ names, n.folded ∉ seen := by
  induction names generalizing seen with
  | nil => simp
  | cons n rest ih =>
    simp only [repeated?] at h
    split at h
    · simp at h
    · next hn =>
      obtain ⟨hd, hs⟩ := ih h
      refine ⟨?_, ?_⟩
      · rw [List.map_cons, List.nodup_cons]
        refine ⟨fun hm => ?_, hd⟩
        obtain ⟨m, hm, he⟩ := List.mem_map.mp hm
        exact hs m hm (by simp [he])
      · intro m hm
        rcases List.mem_cons.mp hm with rfl | hm
        · exact hn
        · exact fun hmem => hs m hm (List.mem_cons_of_mem _ hmem)

end Costing.Intake

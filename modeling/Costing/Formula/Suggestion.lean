import Costing.Catalog
import Costing.Formula.Builtin
import Costing.Model.Module
import Costing.Settings
import Costing.Text.Lowercase
import Costing.Text.Similarity

/-! # Suggestions for names

While a formula is typed, an editor offers names that may complete or mend the word at hand.
`candidates` lists every name that a formula could use where it stands; `suggest` ranks
candidates for a word in tiers: the word itself, recently used names that contain it, names that
begin with it, built-in functions and constants that contain it, other names that contain it
and, if there is room left, names that are spelled alike.  Case does not matter. -/

namespace Costing

namespace Formula

/-! ## Candidates -/

/-- A name with each of the properties of an item. -/
def dotted (base : String) (properties : List String) : List String :=
  properties.map fun p => base ++ "." ++ p

/-- The names through which a formula reads a field. -/
def fieldNames (c : Catalog) (f : Field) : List String :=
  f.name.text ::
    (c.itemsForField f).flatMap fun i => dotted f.name.text i.propertyNames

/-- The names through which a formula reads the items of one half of a catalog. -/
def itemNames (c : Catalog) (kind : CatalogKind) : List String :=
  (c.shelf kind).entries.flatMap fun (name, i) => name :: dotted name i.propertyNames

def candidates (available : List String) (fields : List Field) (c : Catalog)
    (functions : List SharedFunction) : List String :=
  (available ++ fields.flatMap (fieldNames c) ++ itemNames c .material ++ itemNames c .labor ++
    functions.map (·.name.text) ++ mathNames).eraseDups

/-- The names that the formula of a module sees: its fields and the keys of its outputs. -/
def availableNames (fields : List Field) (outputs : List Output) : List String :=
  fields.map (·.name.text) ++ outputs.map (·.key)

end Formula

/-! ## Texts inside texts -/

namespace Text

def occursIn (part : List Char) : List Char → Bool
  | [] => part.isEmpty
  | c :: cs => part.isPrefixOf (c :: cs) || occursIn part cs

theorem occursIn_iff {part cs : List Char} : occursIn part cs = true ↔ part <:+: cs := by
  induction cs with
  | nil => simp [occursIn]
  | cons c cs ih => simp [occursIn, ih, List.infix_cons_iff]

end Text

/-! ## Ranking -/

namespace Formula

def folded (name : String) : List Char := (Text.lower name).toList

/-- The candidates that contain a word, tier by tier. -/
def containing (word : List Char) (candidates recent : List String) : List String :=
  let contains := fun name => Text.occursIn word (folded name)
  let exact := candidates.filter fun c => folded c == word
  let used := recent.filter contains
  let beginning := candidates.filter fun c => word.isPrefixOf (folded c)
  let builtin := candidates.filter fun c => mathNames.contains c && contains c
  (exact ++ used ++ beginning ++ builtin ++ candidates.filter contains).eraseDups

/-- The candidates that are spelled like a word.  Of several that differ in case only the last
one counts. -/
def alike (word : String) (candidates : List String) (limit : Nat) : List String :=
  let byFolded : Table String String := .indexBy Text.lower candidates
  (Text.closeMatches word byFolded.keys limit).filterMap byFolded.get?

/-- At most `limit` candidates for a word, the best first.  For a blank word they are the
recently used names and then all others. -/
def suggest (word : String) (candidates recent : List String) (limit : Int) : List String :=
  let candidates := candidates.eraseDups
  let recent := (recent.take Settings.recentLimit).filter candidates.contains
  let word := Text.lower (Text.strip word)
  if word = "" then takeFront limit (recent ++ candidates).eraseDups
  else
    let ranked := containing word.toList candidates recent
    if (ranked.length : Int) < limit then
      let others := candidates.filter fun c => !ranked.contains c
      takeFront limit (ranked ++ alike word others limit.toNat)
    else takeFront limit ranked

end Formula

end Costing

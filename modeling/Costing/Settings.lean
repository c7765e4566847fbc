/-! # Settings

The limits of the formula language, the sizes of the lists shown to an editor and the defaults
of a quote. -/

namespace Costing

namespace Settings

/-- The name under which the engine reports its health. -/
def appName : String := "Module Cost Estimator"

/-- How many bodies of shared functions may be open at once. -/
def maxFunctionDepth : Nat := 32

/-- How many parentheses, signs and powers of a formula may be open at once. -/
def maxNesting : Nat := 100

/-- The greatest height of the tree of a formula; a chain of operators counts each of them. -/
def maxHeight : Nat := 300

/-- The room that the evaluation of one formula has for calls that wait for one another. -/
def evaluationRoom : Nat := 950

def outputDecimals : Nat := 2

/-- The decimal places of the amounts of a quote. -/
def amountDecimals : Nat := 2

/-- The greatest number that is appended to make a name free. -/
def maxNameNumber : Nat := 1000

def suggestionLimit : Nat := 30

/-- How many of the recently used names count for suggestions. -/
def recentLimit : Nat := 15

/-- How many fields the summary of a line item shows. -/
def summaryCount : Nat := 3

/-- The tax rate of a quote that states none. -/
def defaultTaxRate : Float := 0.10

/-- The markup of a quote that states none, in percent. -/
def defaultMarkupPercent : Float := 0.0

end Settings

/-! ## Lists of a given size -/

/-- The front of a list: `count` items, or all but `-count` if `count` is negative. -/
def takeFront {α : Type} (count : Int) (items : List α) : List α :=
  if 0 ≤ count then items.take count.toNat else items.take (items.length - (-count).toNat)

theorem takeFront_natCast {α : Type} (count : Nat) (items : List α) :
    takeFront count items = items.take count := by
  simp [takeFront]

end Costing

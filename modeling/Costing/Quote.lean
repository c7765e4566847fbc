import Costing.Cost
import Costing.Decimal.Binary
import Costing.Summary

/-! # Quotes

A quote is a list of line items, each a snapshot of an instance that could be costed.  Its total
follows from the sum of the costs, a markup in percent of that sum, and a tax on both; every
amount is rounded by itself. -/

namespace Costing

/-! ## Line items -/

/-- What stands in front of the fault of an instance that is to be added to a quote. -/
def cannotAdd : String := "Cannot add item"

/-- The line item for an instance of a module and its cost, under a new identifier.  An instance
without a cost cannot be added. -/
def lineItemFor (id : String) (i : Instance) (m : Module) (c : InstanceCost) :
    Except FaultReport LineItem :=
  match c.fault, c.cost with
  | some fault, _ => .error (fault.preceded cannotAdd)
  | none, none => .error ({ cause := .evaluation (.noCost m.name) } : Fault).report
  | none, some cost =>
    .ok
      { id := id
        moduleId := i.moduleId
        moduleName := m.name
        values := i.values
        summary := m.summary i.storedInputs Settings.summaryCount
        cost := cost }

/-! ## Totals -/

/-- The markup and the tax rate of a quote that states none. -/
structure QuoteTerms where
  taxRate : Float
  markupPercent : Float

def QuoteTerms.standard : QuoteTerms := ⟨Settings.defaultTaxRate, Settings.defaultMarkupPercent⟩

/-- The amounts of a quote. -/
structure QuoteTotals where
  subtotal : Float
  markupPercent : Float
  markupAmount : Float
  taxRate : Float
  taxAmount : Float
  total : Float
  lineCount : Nat

def amount (x : Float) : Float := Decimal.roundTo Settings.amountDecimals x

namespace QuoteTerms

/-- The totals of a quote.  A markup below zero counts as none. -/
def totals (terms : QuoteTerms) (items : List LineItem) (markupPercent taxRate : Option Float) :
    QuoteTotals :=
  let stated := markupPercent.getD terms.markupPercent
  let markupPercent := if stated > 0 then stated else 0
  let taxRate := taxRate.getD terms.taxRate
  let subtotal := amount (items.foldl (fun sum item => sum + item.cost) 0)
  let markupAmount := amount (subtotal * (markupPercent / 100))
  let taxAmount := amount ((subtotal + markupAmount) * taxRate)
  { subtotal := subtotal
    markupPercent := markupPercent
    markupAmount := markupAmount
    taxRate := taxRate
    taxAmount := taxAmount
    total := amount (subtotal + markupAmount + taxAmount)
    lineCount := items.length }

end QuoteTerms

end Costing

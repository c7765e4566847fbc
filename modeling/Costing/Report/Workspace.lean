import Costing.Link.Status
import Costing.Quote
import Costing.Recalculation
import Costing.Report.Model

/-! # Writing workspaces and quotes as documents -/

namespace Costing.Report

/-- The entries of the cost of an instance. -/
def instanceCostEntries (c : InstanceCost) : List (String × Json) :=
  [("instance_id", .text c.instanceId), ("cost", .ofReal? c.cost),
    ("error", match c.fault with | some r => fault r | none => .null),
    ("computed_values", table .real c.values), ("computed_errors", table fault c.faults)]

def instanceCost (c : InstanceCost) : Json := .object (instanceCostEntries c)

def brokenLink (b : BrokenLink) : Json :=
  .object [("instance_id", .text b.place.instanceId), ("field_name", .text b.place.name),
    ("target_instance_id", .text b.link.instanceId), ("target_variable_name", .text b.link.name),
    ("reason", .text b.reason.word)]

def recalculation (r : Recalculation) : Json :=
  .object [("instances", .list (r.instances.map moduleInstance)),
    ("costs", table instanceCost r.costs),
    ("resolved_values", table (table fieldValue) r.values),
    ("broken_links", .list (r.broken.map brokenLink))]

def linkCheck : Except LinkRefusal Unit → Json
  | .ok _ => .object [("valid", .flag true), ("error", .null), ("error_kind", .null)]
  | .error refusal =>
    .object [("valid", .flag false), ("error", .text refusal.message),
      ("error_kind", .text FaultKind.incompatibleLink.word)]

/-- A place that a field may be linked to. -/
def linkOption (o : LinkOption) : Json :=
  .object [("value", .text o.place.label), ("label", .text o.label),
    ("instance_id", .text o.place.instanceId), ("variable_name", .text o.place.name)]

def quoteTotals (t : QuoteTotals) : Json :=
  .object [("subtotal", .real t.subtotal), ("markup_percent", .real t.markupPercent),
    ("markup_amount", .real t.markupAmount), ("tax_rate", .real t.taxRate),
    ("tax_amount", .real t.taxAmount), ("total", .real t.total), ("line_count", .whole t.lineCount)]

end Costing.Report

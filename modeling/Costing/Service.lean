import Costing.Report.Formula
import Costing.Report.Workspace
import Costing.Service.Request

/-! # The service

The service answers requests for single formulas, for modules, for units and for workspaces.
`Service.respond` finds the answer for a path and the document that came with it. -/

namespace Costing.Service

/-- Why a request has no proper answer. -/
inductive Refusal where
  | invalid (issues : List Intake.Issue)
  | unit (fault : UnitFault)
  | fault (report : FaultReport)
  | noInstance (id : String)
  | noModule (id : String)
  | noSuchPath (path : String)
  | crash (crash : Formula.Crash)

/-- The status and the detail with which a request is refused that could be read. -/
def Refusal.statusAndDetail? : Refusal → Option (Nat × Json)
  | .unit f => some (400, .text f.message)
  | .fault report => some (400, Report.fault report)
  | .noInstance id => some (404, .text ("Module instance " ++ id ++ " not found"))
  | .noModule id => some (404, .text ("Module " ++ id ++ " not found"))
  | .noSuchPath _ => some (404, .text "Not Found")
  | .invalid _ | .crash _ => none

abbrev Response := Except Refusal Json

/-- Answers a request that is read from a document. -/
def answering {α : Type} (read : Intake.Reader α) (answer : α → Response) (body : Json) :
    Response :=
  match read body with
  | .valid request => answer request
  | .invalid issues => .error (.invalid issues)

def orCrash {α : Type} (result : Except Formula.Crash α) : Except Refusal α :=
  result.mapError .crash

/-! ## Health and units -/

def health : Json := .object [("status", .text "ok"), ("app", .text Settings.appName)]

def units : Json :=
  .object [("categories", .ofTexts Units.categories),
    ("units", .list (Units.registry.map fun u =>
      .object [("key", .text u.key), ("category", .text u.category), ("symbol", .text u.symbol)]))]

def convert (r : Conversion) : Response := do
  let x ← (Units.convert r.value r.source r.target).mapError Refusal.unit
  pure (.object [("value", .real x), ("unit", .text r.target)])

/-- Converts a value to base units or back. -/
def normalize (r : Normalization) : Response := do
  let u ← (Units.get r.symbol).mapError Refusal.unit
  let x := if r.toDisplay then Units.fromBase u r.value else Units.toBase u r.value
  pure (.object [("value", .real x), ("unit_symbol", .text r.symbol),
    ("category", .text u.category)])

/-! ## Formulas -/

def evaluate (r : Evaluation) : Response := do
  let inputs := r.values.mapValues fun _ v => FieldInput.given v
  let result ← orCrash (Formula.evaluate (.ofInputs r.book r.fields inputs) r.formula).settled
  match result with
  | .ok x => pure (.object [("result", .real x)])
  | .error fault => throw (.fault fault.report)

def validate (r : Validation) : Response :=
  .ok (Report.verdict
    ((Formula.Vocabulary.ofLists r.available r.fields r.outputs r.bareOutputs r.book).validate
      r.formula))

def analyze (r : Validation) : Response :=
  let available := r.available ++ r.outputs.map (·.key)
  .ok (Report.analysis
    ((Formula.Vocabulary.ofLists available r.fields [] false r.book).analyze r.formula))

def suggest (r : Suggestion) : Response :=
  let candidates := Formula.candidates r.available r.fields r.book.catalog r.book.functions.values
  let limit := r.limit.getD Settings.suggestionLimit
  .ok (.object [("suggestions", .ofTexts (Formula.suggest r.word candidates r.recent limit))])

/-! ## Modules -/

def validateModule (r : ModuleRequest) : Response :=
  .ok (Report.moduleVerdict (r.definition.validate r.book))

/-- Costs a module from values for its fields, outside any workspace. -/
def costPreview (r : ModuleRequest × Table String FieldValue) : Response := do
  let cost ← orCrash (r.1.definition.cost r.1.book (r.2.mapValues fun _ v => .given v) "")
  pure (Report.instanceCost cost)

/-- Finds a name for a new output of a module. -/
def outputName (r : String × Module) : Response :=
  let fields := r.2.fields.map (·.name)
  let outputs := r.2.outputs.map (·.name)
  let name := generatedName r.1 (outputs ++ fields)
  let problem := outputNameProblem? outputs fields name
  .ok (.object [("variable_name", .text name), ("valid", .flag problem.isNone),
    ("error", .ofText? (problem.map (·.message)))])

/-! ## Workspaces -/

def findInstance (w : Workspace) (id : String) : Except Refusal Instance :=
  match w.firstInstance? id with
  | some i => .ok i
  | none => .error (.noInstance id)

def calculate (r : WorkspaceRequest) : Response := do
  let result ← orCrash (r.workspace.recalculate r.book)
  pure (Report.recalculation result)

def checkLink (r : WorkspaceRequest × Place × Place) : Response :=
  .ok (Report.linkCheck (r.1.workspace.checkLink r.2.1 r.2.2))

/-- Describes the link of a field and lists what the field may be linked to. -/
def linkOptions (r : WorkspaceRequest × Place) : Response := do
  let w := r.1.workspace
  let field := r.2.name
  let i ← findInstance w r.2.instanceId
  pure (.object [("options", .list ((w.linkOptions i field).map Report.linkOption)),
    ("linked", .flag (i.links.contains field)), ("broken", .flag (w.isLinkBroken i field)),
    ("display_name", .text (w.linkName i field))])

def lineItem (r : WorkspaceRequest × String) : Response := do
  let w := r.1.workspace
  let i ← findInstance w r.2
  match w.firstModule? i.moduleId with
  | none => throw (.noModule i.moduleId)
  | some m =>
    let result ← orCrash (w.recalculate r.1.book)
    match result.costs.get? i.id with
    | none => throw (.noInstance i.id)
    | some c =>
      let item ← (lineItemFor "" i m c).mapError Refusal.fault
      pure (.object (Report.lineItemEntries item))

def totals (r : Totalling) : Response :=
  .ok (Report.quoteTotals (QuoteTerms.standard.totals r.items r.markupPercent r.taxRate))

/-! ## Paths -/

/-- The answer to the document that came to a path. -/
def respond (path : String) (body : Json) : Response :=
  match path with
  | "/health" => .ok health
  | "/api/units" => .ok units
  | "/api/units/convert" => answering conversion convert body
  | "/api/units/normalize" => answering normalization normalize body
  | "/api/formulas/evaluate" => answering evaluation evaluate body
  | "/api/formulas/validate" => answering validation validate body
  | "/api/formulas/analyze" => answering validation analyze body
  | "/api/formulas/suggest" => answering suggestion suggest body
  | "/api/modules/validate" => answering (Intake.record moduleEntries) validateModule body
  | "/api/modules/preview" => answering preview costPreview body
  | "/api/modules/output-name" => answering labelling outputName body
  | "/api/workspace/calculate" => answering (Intake.record workspaceEntries) calculate body
  | "/api/workspace/links/check" => answering linkProposal checkLink body
  | "/api/workspace/links/options" => answering workspaceField linkOptions body
  | "/api/workspace/line-item" => answering workspaceInstance lineItem body
  | "/api/workspace/totals" => answering totalling totals body
  | _ => .error (.noSuchPath path)

end Costing.Service

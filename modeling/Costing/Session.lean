import Costing.Link.Status
import Costing.Quote
import Costing.Recalculation

/-! # Editing sessions

A session holds a workspace, the price lists and a quote.  It is changed by one step at a time,
and after each step the workspace is recalculated. -/

namespace Costing

/-- What is edited. -/
structure Session where
  workspace : Workspace
  materials : List Material
  labor : List Labor
  functions : List SharedFunction
  quote : List LineItem

/-- A step of editing. -/
inductive Step where
  | setValue (place : Place) (value : FieldValue)
  | unsetValue (place : Place)
  /-- A link is stored if it is acceptable, or in any case if it is forced. -/
  | link (source target : Place) (forced : Bool)
  | unlink (place : Place)
  | putInstance (i : Instance)
  | removeInstance (id : String)
  | putModule (m : Module)
  | removeModule (id : String)
  | putPrices (materials : Option (List Material)) (labor : Option (List Labor))
      (functions : Option (List SharedFunction))
  | linkStatus (place : Place)
  | addToQuote (instanceId itemId : String)
  | quoteTotals (markupPercent taxRate : Option Float)

/-- What a step answers. -/
inductive StepAnswer where
  | done
  | linkChecked (check : Except LinkRefusal Unit)
  | linkStatus (broken : Bool) (name : String) (options : List LinkOption)
  | added (item : LineItem)
  | refused (fault : FaultReport)
  | totals (totals : QuoteTotals)
  /-- The step names an instance or a module that does not exist. -/
  | notFound

/-- A list with its first item of a kind changed, if there is one. -/
def updateFirst? {α : Type} (isIt : α → Bool) (change : α → α) : List α → Option (List α)
  | [] => none
  | a :: rest =>
    if isIt a then some (change a :: rest) else (updateFirst? isIt change rest).map (a :: ·)

/-- A list with an item in place of the first one of its kind, or at the end. -/
def putFirst {α : Type} (isIt : α → Bool) (item : α) (items : List α) : List α :=
  (updateFirst? isIt (fun _ => item) items).getD (items ++ [item])

namespace Session

def book (s : Session) : Pricebook := .ofLists s.materials s.labor s.functions

def withInstances (s : Session) (instances : List Instance) : Session :=
  { s with workspace := { s.workspace with instances := instances } }

def withModules (s : Session) (modules : List Module) : Session :=
  { s with workspace := { s.workspace with modules := modules } }

def changeInstance? (s : Session) (id : String) (change : Instance → Instance) :
    Option Session :=
  (updateFirst? (·.id == id) change s.workspace.instances).map s.withInstances

def changing (s : Session) (id : String) (answer : StepAnswer) (change : Instance → Instance) :
    StepAnswer × Session :=
  match s.changeInstance? id change with
  | some s => (answer, s)
  | none => (.notFound, s)

/-- Stores a link if it is acceptable or forced. -/
def linking (s : Session) (source target : Place) (forced : Bool) : StepAnswer × Session :=
  let check := s.workspace.checkLink source target
  if check.isOk || forced then
    s.changing source.instanceId (.linkChecked check) fun i =>
      { i with links := i.links.insert source.name target }
  else (.linkChecked check, s)

/-- Adds an instance to the quote, as the recalculated workspace shows it. -/
def adding (s : Session) (instanceId itemId : String) :
    Except Formula.Crash (StepAnswer × Session) :=
  match s.workspace.firstInstance? instanceId with
  | none => .ok (.notFound, s)
  | some i =>
    match s.workspace.firstModule? i.moduleId with
    | none => .ok (.notFound, s)
    | some m => do
      let r ← s.workspace.recalculate s.book
      match r.costs.get? i.id with
      | none => pure (.notFound, s)
      | some c =>
        match lineItemFor itemId i m c with
        | .ok item => pure (.added item, { s with quote := s.quote ++ [item] })
        | .error fault => pure (.refused fault, s)

def perform (s : Session) : Step → Except Formula.Crash (StepAnswer × Session)
  | .setValue p value =>
    .ok (s.changing p.instanceId .done fun i => { i with values := i.values.insert p.name value })
  | .unsetValue p =>
    .ok (s.changing p.instanceId .done fun i => { i with values := i.values.erase p.name })
  | .link source target forced => .ok (s.linking source target forced)
  | .unlink p =>
    .ok (s.changing p.instanceId .done fun i => { i with links := i.links.erase p.name })
  | .putInstance i =>
    .ok (.done, s.withInstances (putFirst (·.id == i.id) i s.workspace.instances))
  | .removeInstance id =>
    .ok (if s.workspace.instances.any (·.id == id) then
        (.done, s.withInstances (s.workspace.instances.eraseP (·.id == id)))
      else (.notFound, s))
  | .putModule m => .ok (.done, s.withModules (putFirst (·.id == m.id) m s.workspace.modules))
  | .removeModule id =>
    .ok (if s.workspace.modules.any (·.id == id) then
        (.done, s.withModules (s.workspace.modules.eraseP (·.id == id)))
      else (.notFound, s))
  | .putPrices materials labor functions =>
    .ok (.done,
      { s with
        materials := materials.getD s.materials
        labor := labor.getD s.labor
        functions := functions.getD s.functions })
  | .linkStatus p =>
    .ok (match s.workspace.firstInstance? p.instanceId with
      | none => (.notFound, s)
      | some i =>
        (.linkStatus (s.workspace.isLinkBroken i p.name) (s.workspace.linkName i p.name)
          (s.workspace.linkOptions i p.name), s))
  | .addToQuote instanceId itemId => s.adding instanceId itemId
  | .quoteTotals markupPercent taxRate =>
    .ok (.totals (QuoteTerms.standard.totals s.quote markupPercent taxRate), s)

/-- Recalculates the workspace of a session and keeps the new costs. -/
def recalculate (s : Session) : Except Formula.Crash (Recalculation × Session) := do
  let r ← s.workspace.recalculate s.book
  pure (r, s.withInstances r.instances)

end Session

end Costing

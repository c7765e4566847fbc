import Costing.Fault
import Costing.Model.Module
import Costing.Settings

/-! # Summaries of field values -/

namespace Costing

/-- A value as it is shown to people: a whole number has no decimal places. -/
def FieldValue.shown : FieldValue → String
  | .blank => ""
  | .flag b => if b then "true" else "false"
  | .number x =>
    match Decimal.Binary.ofFloat? x with
    | some b => if b.isWhole then toString b.floor else Decimal.text x
    | none => Decimal.text x
  | .text s => s

/-- A value as it is shown to people; of a broken link its parts are shown. -/
def FieldInput.display : FieldInput → String
  | .given v => v.shown
  | .broken reason fallback =>
    "BrokenValue(reason=" ++ Text.quoted reason.word ++ ", fallback=" ++ fallback.quoted ++ ")"

/-- A short summary of the first fields of a module. -/
def Module.summary (m : Module) (inputs : Table String FieldInput) (count : Int) : String :=
  let part := fun f : Field =>
    f.label ++ ": " ++ ((inputs.get? f.name.text).getD (.given .blank)).display
  match (takeFront count m.fields).map part with
  | [] => "No details"
  | parts => String.intercalate ", " parts

end Costing

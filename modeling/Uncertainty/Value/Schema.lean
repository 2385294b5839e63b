import Uncertainty.Value
import Uncertainty.Document.Schema

/-!
Values as documents.
-/
namespace Uncertainty.Value

def toDocument : Value → Document
  | positive x => .record [("type", .text "pos_number"), ("value", .real x)]
  | number x => .record [("type", .text "number"), ("value", .real x)]
  | measurement m =>
    .record [("mean", .real m.mean), ("sigma", .real m.sigma), ("type", .text "measurement")]

def real : Document → Except SchemaError Binary64
  | .real x => .ok x
  | document => .error (.notNumber document.kind)

/-- Nothing but the shape is checked: a value need not be consistent with its type. -/
def ofDocument : Document → Except SchemaError Value
  | .record fields => do
    let document := Document.record fields
    match Document.typeName? fields with
    | some "pos_number" => return positive (← real (← document.require "value"))
    | some "number" => return number (← real (← document.require "value"))
    | some "measurement" =>
      let mean ← document.require "mean"
      let sigma ← document.require "sigma"
      return measurement ⟨← real mean, ← real sigma⟩
    | _ => throw (.unknownType "value" (Document.typeField fields).displayBare)
  | document => throw (.notRecord document.kind)

end Uncertainty.Value

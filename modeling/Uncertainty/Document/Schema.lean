import Uncertainty.Document

/-!
Reading the fields of a document that should have a certain shape, and the faults that it may have.
-/
namespace Uncertainty

inductive SchemaError where
  | notRecord (kind : String)
  | unknownType (subject found : String)
  | missing (field : String)
  | unknownKind (found : String)
  | notIndexed (kind : String)
  | notIterable (kind : String)
  | notNumber (kind : String)
deriving DecidableEq

namespace SchemaError

def message : SchemaError → String
  | notRecord kind => s!"'{kind}' object has no attribute 'get'"
  | unknownType subject found => s!"Unsupported {subject} dict type: {found}"
  | missing field => Text.quoted field
  | unknownKind found => s!"{found} is not a valid TokenKind"
  | notIndexed "str" => "string indices must be integers, not 'str'"
  | notIndexed "list" => "list indices must be integers or slices, not str"
  | notIndexed "tuple" => "tuple indices must be integers or slices, not str"
  | notIndexed "bytes" => "byte indices must be integers or slices, not str"
  | notIndexed kind => s!"'{kind}' object is not subscriptable"
  | notIterable kind => s!"'{kind}' object is not iterable"
  | notNumber kind => s!"must be real number, not {kind}"

end SchemaError

namespace Document

/-- A field that must be there, in a document that must be a record. -/
def require (name : String) : Document → Except SchemaError Document
  | record fields =>
    (fields.lookup (Scalar.text name)).elim (.error (.missing name)) (.ok ·.entered)
  | document => .error (.notIndexed document.kind)

def typeField (fields : List (Scalar × Document)) : Document :=
  ((fields.lookup (Scalar.text "type")).getD .null).entered

def string? : Document → Option String
  | text s => s.toString?
  | _ => none

def typeName? (fields : List (Scalar × Document)) : Option String :=
  (typeField fields).string?

/-- The kind of the first member of a document that has members, nothing for an empty one; none if
it is of a kind without members. -/
def firstMember? : Document → Option (Option String)
  | list items => some (items.head?.map kind)
  | pair first _ => some (some first.kind)
  | set members => some (members.head?.map Scalar.kind)
  | record fields => some (fields.head?.map fun field => field.1.kind)
  | again whole => whole.firstMember?
  | scalar (.text s) => some (if s.isEmpty then none else some "str")
  | scalar (.bytes values) => some (if values.isEmpty then none else some "int")
  | scalar _ => none

end Document
end Uncertainty

import Uncertainty.Document
import Uncertainty.Document.Yaml.Node.Parser
import Uncertainty.Document.Yaml.Scalar
import Uncertainty.Document.Yaml.Token.Lexer

/-!
Reading the document of one text. The tags of its nodes say what each of them stands for; the fields
of a record may be merged into another one, where its own fields come after them. Of several faults
the outermost is reported, and of those that are equally far out the first.
-/
namespace Uncertainty.Yaml

/-- What a node stands for, or how far out it has a fault and which. -/
abbrev Outcome (α : Type) := Except (Nat × Fault) α

namespace Outcome

variable {α β : Type}

def ofExcept (depth : Nat) : Except Fault α → Outcome α :=
  Except.mapError fun fault => (depth, fault)

/-- Both results, or the fault that is further out. -/
def both : Outcome α → Outcome β → Outcome (α × β)
  | .ok a, .ok b => .ok (a, b)
  | .error e, .ok _ | .ok _, .error e => .error e
  | .error e, .error f => .error (if f.1 < e.1 then f else e)

end Outcome

namespace Node

mutual

def text? : Node → Option Text
  | scalar _ text => some text
  | list .. | again _ => none
  | record _ fields => valueText? fields

def valueText? : List (Node × Node) → Option Text
  | [] => none
  | (name, value) :: rest => if name.tag = .value then text? value else valueText? rest

end

end Node
/-- The name that a node stands for in front of a value. The sign of a value is a text there. -/
def nameAt (depth : Nat) (node : Node) : Outcome Scalar :=
  match node.text? with
  | some text =>
    Outcome.ofExcept depth (scalar (if node.tag = .value then .text else node.tag) text)
  | none => .error (depth, .malformed)

namespace Node

mutual

def canMerge : List (Node × Node) → Bool
  | [] => true
  | (name, value) :: rest => (name.tag ≠ .merge || isMergeable value) && canMerge rest

def isMergeable : Node → Bool
  | scalar .. => false
  | list _ items => areRecords items
  | record _ fields => canMerge fields
  | again whole => isMergeable whole

def areRecords : List Node → Bool
  | [] => true
  | record _ fields :: rest | again (record _ fields) :: rest =>
    canMerge fields && areRecords rest
  | _ :: _ => false

end

end Node

/-- The fields of a record that come from elsewhere, and its own ones. -/
abbrev Fields := Outcome (List (Scalar × Document))

namespace Fields

def append (first second : Fields) : Fields :=
  (Outcome.both first second).map fun (a, b) => a ++ b

end Fields

mutual

def documentAt (depth : Nat) : Node → Outcome Document
  | .list .list items => (itemsAt (depth + 1) items).map .list
  | .list .pairs items | .list .orderedPairs items => (pairsAt (depth + 1) items).map .list
  | .record .record fields => (recordAt (depth + 1) fields).map .ofFields
  | .again whole => (documentAt depth whole).map .again
  | .record .set fields =>
    (recordAt (depth + 1) fields).map fun fields => .set ((Document.collect fields).map (·.1))
  | node =>
    match node.tag, node.text? with
    | .list, _ | .pairs, _ | .orderedPairs, _ | .set, _ | .record, _ =>
      .error (depth + 1, .malformed)
    | tag, some text => (Outcome.ofExcept depth (scalar tag text)).map .scalar
    | _, none => .error (depth, .malformed)

def itemsAt (depth : Nat) : List Node → Outcome (List Document)
  | [] => .ok []
  | node :: rest =>
    (Outcome.both (documentAt depth node) (itemsAt depth rest)).map fun (item, items) =>
      item :: items

/-- A pair is written as a record of one field. -/
def pairsAt (depth : Nat) : List Node → Outcome (List Document)
  | [] => .ok []
  | .record _ [(first, second)] :: rest =>
    (Outcome.both (Outcome.both (documentAt depth first) (documentAt depth second))
      (pairsAt depth rest)).map fun ((first, second), pairs) => .pair first second :: pairs
  | _ :: _ => .error (depth, .malformed)

def recordAt (depth : Nat) (fields : List (Node × Node)) : Fields :=
  if Node.canMerge fields then
    let (merged, own) := fieldsAt depth fields
    merged.append own
  else .error (depth, .malformed)

def fieldsAt (depth : Nat) : List (Node × Node) → Fields × Fields
  | [] => (.ok [], .ok [])
  | (name, value) :: rest =>
    let (merged, own) := fieldsAt depth rest
    if name.tag = .merge then ((mergedAt depth value).append merged, own)
    else
      let field := Outcome.both (nameAt depth name) (documentAt depth value)
      (merged, Fields.append (field.map ([·])) own)

def mergedAt (depth : Nat) : Node → Fields
  | .scalar .. => .error (depth, .malformed)
  | .list _ items => allMergedAt depth items
  | .record _ fields =>
    let (merged, own) := fieldsAt depth fields
    merged.append own
  | .again whole => mergedAt depth whole

/-- Of several records the first one comes last, so that its fields count. -/
def allMergedAt (depth : Nat) : List Node → Fields
  | [] => .ok []
  | node :: rest => (allMergedAt depth rest).append (mergedAt depth node)

end

def isAllowed (c : Char) : Bool :=
  c = '\t' || c = '\n' || c = '\r' || c = '\u0085' || (0x20 ≤ c.toNat && c.toNat ≤ 0x7E)
    || (0xA0 ≤ c.toNat && c.toNat ≤ 0xFFFD) || 0x10000 ≤ c.toNat

def read (text : String) : Except Fault Document := do
  if !text.toList.all isAllowed then throw .malformed
  match ← Node.ofTokens (Token.tokens text.toList) with
  | some node => (documentAt 0 node).mapError (·.2)
  | none => return .null

end Uncertainty.Yaml

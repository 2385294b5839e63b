import Uncertainty.Expr
import Uncertainty.Document.Schema

/-!
Expression trees as documents. Literals keep their digits as texts, and data in the place of digits
are kept as they are. Faults are reported in reading order: the type, the operator, then the
operands from left to right.
-/
namespace Uncertainty

namespace Token

def toDocument (token : Token) : Document :=
  match token.lexeme with
  | .number literal =>
    .record [("fractional", .text literal.fractional), ("integral", .text literal.integral),
      ("kind", .text "number")]
  | .symbol symbol => .record [("kind", .text symbol.text)]
  | .data integral fractional =>
    .record [("fractional", fractional), ("integral", integral), ("kind", .text "number")]

/-- A number of two strings is a literal. -/
def numberOf (integral fractional : Document) : Lexeme :=
  match integral.string?, fractional.string? with
  | some i, some f => .number ⟨i, f⟩
  | _, _ => .data integral fractional

/-- Digits count only for a number, whose fraction may be left out. -/
def ofDocument (document : Document) : Except SchemaError Token := do
  let kind ← document.require "kind"
  if kind.string? = some "number" then
    let integral ← document.require "integral"
    let fractional := (document.require "fractional").toOption.getD (.text "")
    return ⟨numberOf integral fractional, none⟩
  else
    match kind.string?.bind Symbol.ofText? with
    | some symbol => return ⟨.symbol symbol, none⟩
    | none => throw (.unknownKind kind.display)

end Token

namespace Expr

mutual

def toDocument : Expr → Document
  | atom token => .record [("token", token.toDocument), ("type", .text "atom")]
  | group operator operands =>
    .record [("children", .list (toDocuments operands)), ("operator", operator.toDocument),
      ("type", .text "group")]

def toDocuments : List Expr → List Document
  | [] => []
  | x :: xs => toDocument x :: toDocuments xs

end

mutual

def ofDocument : Document → Except SchemaError Expr
  | .record fields =>
    match Document.typeName? fields with
    | some "atom" => do
      let token ← (Document.record fields).require "token"
      return atom (← Token.ofDocument token)
    | some "group" => do
      let operator ← (Document.record fields).require "operator"
      return group (← Token.ofDocument operator) (← ofField fields)
    | _ => .error (.unknownType "expression" (Document.typeField fields).displayBare)
  | document => .error (.notRecord document.kind)

def ofField : List (Scalar × Document) → Except SchemaError (List Expr)
  | [] => .ok []
  | (name, value) :: rest =>
    if name = Scalar.text "children" then ofChildren value else ofField rest

/-- The members of anything but a list or a pair are no trees, but it may be empty. -/
def ofChildren : Document → Except SchemaError (List Expr)
  | .list items => ofDocuments items
  | .pair first second => do return [← ofDocument first, ← ofDocument second]
  | document =>
    match document.firstMember? with
    | some (some kind) => .error (.notRecord kind)
    | some none => .ok []
    | none => .error (.notIterable document.kind)

def ofDocuments : List Document → Except SchemaError (List Expr)
  | [] => .ok []
  | x :: xs => do return (← ofDocument x) :: (← ofDocuments xs)

end

end Expr
end Uncertainty

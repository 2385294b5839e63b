import Uncertainty.Expr

/-!
Two texts of an expression: the S-expression, which names the operator first, and the infix form in
which every group stands in parentheses, so that no precedence is needed to read it.
-/
namespace Uncertainty.Expr

mutual

/-- The S-expression of a tree; an operator is written by its kind. -/
def sexpr : Expr → String
  | atom token => token.lexeme.text
  | group operator operands => "(" ++ operator.lexeme.kind ++ sexprTail operands ++ ")"

def sexprTail : List Expr → String
  | [] => ""
  | x :: xs => " " ++ sexpr x ++ sexprTail xs

end

/-- Operands in parentheses: one behind its operator, several with the operator between them. -/
def enclose (operator : String) : List String → String
  | [operand] => "(" ++ operator ++ operand ++ ")"
  | operands => "(" ++ (" " ++ operator ++ " ").intercalate operands ++ ")"

mutual

def parenthesized : Expr → String
  | atom token => token.lexeme.text
  | group operator operands => enclose operator.lexeme.kind (parenthesizedAll operands)

def parenthesizedAll : List Expr → List String
  | [] => []
  | x :: xs => parenthesized x :: parenthesizedAll xs

end

mutual

/-- Why a tree has no text, if it has none: the first of its atoms without one. -/
def textless? : Expr → Option Textless
  | atom token => token.lexeme.textless?
  | group _ operands => textlessAmong? operands

def textlessAmong? : List Expr → Option Textless
  | [] => none
  | x :: xs => (textless? x).or (textlessAmong? xs)

end

def sexpr? (tree : Expr) : Except Textless String :=
  tree.textless?.elim (.ok tree.sexpr) .error

end Uncertainty.Expr

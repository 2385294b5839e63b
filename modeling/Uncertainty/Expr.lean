import Uncertainty.Token

/-!
Expression trees. An atom is a literal or a constant, a group an operator with its operands in the
order of the text. The types allow any token in either place and any number of operands; what is
no expression is found on evaluation.
-/
namespace Uncertainty

inductive Expr where
  | atom (token : Token)
  | group (operator : Token) (operands : List Expr)

namespace Expr

instance : Inhabited Expr := ⟨atom .endOfInput⟩

mutual

/-- Equality of trees, the offsets of their tokens aside. -/
def same : Expr → Expr → Bool
  | atom a, atom b => a.lexeme = b.lexeme
  | group a xs, group b ys => a.lexeme = b.lexeme && sameAll xs ys
  | atom _, group _ _ | group _ _, atom _ => false

def sameAll : List Expr → List Expr → Bool
  | [], [] => true
  | x :: xs, y :: ys => same x y && sameAll xs ys
  | [], _ :: _ | _ :: _, [] => false

end

end Expr
end Uncertainty

import Uncertainty.Evaluation

/-!
From the text of an expression to its value, and what can go wrong on the way: in the text, in the
order of its tokens, or in what they are to mean.
-/
namespace Uncertainty

inductive Failure where
  | lexical (error : LexicalError)
  | parsing (error : ParseError)
  | evaluation (error : EvaluationError)
deriving DecidableEq

namespace Failure

def message : Failure → String
  | lexical error => error.message
  | parsing error => error.message
  | evaluation error => error.message

/-- A tree that is no expression is a fault of syntax, also where only evaluation finds it. -/
def category : Failure → String
  | lexical _ => "lexical"
  | parsing (.malformed _) => "syntax"
  | parsing (.tooDeep _) => "depth"
  | parsing (.textless _) | evaluation (.textless _) => "text"
  | evaluation (.notNumeral _) => "numeral"
  | evaluation (.undefined _) => "domain"
  | evaluation _ => "syntax"

end Failure

namespace Expr

def ofText (limit : Int) (text : String) : Except Failure Expr := do
  let tokens ← (Token.tokenize text).mapError .lexical
  (ofTokens limit tokens).1.mapError .parsing

end Expr

namespace Value

def ofText (limit : Int) (text : String) : Except Failure Value := do
  let tree ← Expr.ofText limit text
  tree.evaluate.mapError .evaluation

end Value

def calculate (text : String) : Except Failure String :=
  (Value.ofText Expr.defaultDepth text).map Value.toText

end Uncertainty

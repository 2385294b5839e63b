import Uncertainty.Expr
import Uncertainty.Operator
import Uncertainty.Token.Lexer

/-!
Reading an expression from tokens by binding powers. The parser's state is the tokens not yet read;
it is kept also when reading fails, so that it shows how far the parser came. Past the last token
there is the end of input, as often as it is asked for.
-/
namespace Uncertainty

inductive SyntaxError where
  | unexpected (token : Token)
  | missingOperator (paren : Token)
  | unclosed (paren found : Token)
  | unmatched (paren : Token)
deriving DecidableEq

namespace SyntaxError

def message : SyntaxError → String
  | unexpected token =>
    if token.lexeme = .symbol .endOfInput then "Unexpected end of expression"
    else s!"Unexpected token '{token.lexeme.text}' at position {token.position}"
  | missingOperator paren => s!"Missing operator before '(' at position {paren.position}"
  | unclosed paren found =>
    s!"Missing closing parenthesis for '(' at position {paren.position}, found " ++
      (if found.lexeme = .symbol .endOfInput then "end of input" else s!"'{found.lexeme.text}'")
  | unmatched paren => s!"Unmatched ')' at position {paren.position}"

end SyntaxError

inductive ParseError where
  | malformed (error : SyntaxError)
  | tooDeep (limit : Int)
  | textless (error : Textless)
deriving DecidableEq

namespace ParseError

def message : ParseError → String
  | malformed error => error.message
  | tooDeep limit => s!"Expression nesting exceeds the maximum depth of {limit}"
  | textless error => error.message

end ParseError

abbrev Parser := EStateM ParseError (List Token)

namespace Parser

def peek : Parser Token :=
  return (← get).headD .endOfInput

def next : Parser Token :=
  modifyGet fun tokens => (tokens.headD .endOfInput, tokens.tail)

def failAt (found : Token) (error : SyntaxError) : Parser α :=
  throw (found.lexeme.textless?.elim (.malformed error) .textless)

/-- An atom, an expression in parentheses, or a negation; `nested power` reads an expression one
level deeper whose operators bind at least with `power`. -/
def operand (nested : Nat → Parser Expr) : Parser Expr := do
  let token ← next
  if token.lexeme.isAtom then return .atom token
  match token.lexeme with
  | .symbol .leftParen =>
    let inner ← nested 0
    let closing ← next
    if closing.lexeme = .symbol .rightParen then return inner
    failAt closing (.unclosed token closing)
  | .symbol .minus => return .group token [← nested Operator.negationPower]
  | _ => failAt token (.unexpected token)

/-- Extends an expression to the right while operators bind at least with `power`. Every round
reads an operator, so as many rounds as there are tokens are enough. -/
def extend (nested : Nat → Parser Expr) (power : Nat) : Nat → Expr → Parser Expr
  | 0, left => return left
  | rounds + 1, left => do
    let token ← peek
    if token.lexeme = .symbol .leftParen then failAt token (.missingOperator token)
    if token.lexeme.isAtom then failAt token (.unexpected token)
    match Operator.ofLexeme? token.lexeme with
    | none => return left
    | some operator =>
      if operator.leftPower < power then return left
      let token ← next
      let right ← nested operator.rightPower
      extend nested power rounds (.group token [left, right])

/-- Reads an expression whose operators bind at least with `power`, within the given number of
levels; where none is left it fails before it reads a token. -/
def expression (limit : Int) : Nat → Nat → Parser Expr
  | 0, _ => throw (.tooDeep limit)
  | levels + 1, power => do
    let left ← operand (expression limit levels)
    extend (expression limit levels) power (← get).length left

def whole (limit : Int) : Parser Expr := do
  let tree ← expression limit limit.toNat 0
  let trailing ← peek
  match trailing.lexeme with
  | .symbol .endOfInput => return tree
  | .symbol .rightParen => failAt trailing (.unmatched trailing)
  | _ => failAt trailing (.unexpected trailing)

end Parser

namespace Expr

def defaultDepth : Int := 200

/-- The expression that a list of tokens writes, and the tokens left over in either case. -/
def ofTokens (limit : Int) (tokens : List Token) : Except ParseError Expr × List Token :=
  match (Parser.whole limit).run tokens with
  | .ok tree rest => (.ok tree, rest)
  | .error error rest => (.error error, rest)

end Expr
end Uncertainty

import Uncertainty.Literal
import Uncertainty.Document

/-!
The tokens of an expression. A lexeme is a decimal literal or one of the fixed symbols; a token is
a lexeme with the place in the text that it was read from. A document may hold anything where a
number has its digits; such a lexeme is a number too, though it may have no text.
-/
namespace Uncertainty

inductive Symbol where
  | euler
  | pi
  | plusMinus
  | plus
  | minus
  | star
  | slash
  | caret
  | leftParen
  | rightParen
  | endOfInput
deriving DecidableEq

namespace Symbol

def all : List Symbol :=
  [euler, pi, plusMinus, plus, minus, star, slash, caret, leftParen, rightParen, endOfInput]

def text : Symbol → String
  | euler => "e"
  | pi => "π"
  | plusMinus => "±"
  | plus => "+"
  | minus => "-"
  | star => "*"
  | slash => "/"
  | caret => "^"
  | leftParen => "("
  | rightParen => ")"
  | endOfInput => "<eof>"

theorem mem_all (symbol : Symbol) : symbol ∈ all := by
  cases symbol <;> simp [all]

theorem text_injective {a b : Symbol} (same : a.text = b.text) : a = b := by
  revert same
  cases a <;> cases b <;> decide

def ofText? (text : String) : Option Symbol :=
  all.find? (·.text = text)

theorem ofText?_text (symbol : Symbol) : ofText? symbol.text = some symbol := by
  cases symbol <;> decide

end Symbol

inductive Lexeme where
  | number (literal : Literal)
  | symbol (symbol : Symbol)
  | data (integral fractional : Document)
deriving DecidableEq

/-- Why a lexeme has no text: it would consist of something else alone, of the kind named here. -/
structure Textless where
  kind : String
deriving DecidableEq

def Textless.message (error : Textless) : String :=
  s!"__str__ returned non-string (type {error.kind})"

namespace Lexeme

def kind : Lexeme → String
  | number _ | data .. => "number"
  | symbol s => s.text

/-- Void data behind the point are left out with the point. -/
def text : Lexeme → String
  | number literal => literal.toText
  | symbol s => s.text
  | data integral fractional =>
    if fractional.isVoid then integral.displayBare
    else integral.displayBare ++ "." ++ fractional.displayBare

def textless? : Lexeme → Option Textless
  | number _ | symbol _ => none
  | data (.text _) _ => none
  | data integral fractional => if fractional.isVoid then some ⟨integral.kind⟩ else none

def text? (lexeme : Lexeme) : Except Textless String :=
  lexeme.textless?.elim (.ok lexeme.text) .error

def isAtom : Lexeme → Bool
  | number _ | data .. | symbol .euler | symbol .pi => true
  | symbol _ => false

end Lexeme

/-- A token that comes from no text has no offset. -/
structure Token where
  lexeme : Lexeme
  offset : Option Nat := none
deriving DecidableEq

namespace Token

def endOfInput : Token :=
  ⟨.symbol .endOfInput, none⟩

/-- The offset as messages and listings show it, `-1` for none. -/
def position (token : Token) : Int :=
  match token.offset with
  | some offset => offset
  | none => -1

end Token
end Uncertainty

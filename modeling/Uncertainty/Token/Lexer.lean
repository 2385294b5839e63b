import Uncertainty.Token

/-!
The tokens of a text. Reading is by the longest lexeme: `+-` is one sign, and a numeral takes all
the digits it can reach and at most one point. Nothing is lost: what no lexeme covers is a blank.
-/
namespace Uncertainty

inductive LexicalError where
  | unexpectedCharacter (character : Char) (offset : Nat)
  | endsInPoint (numeral : String) (offset : Nat)
deriving DecidableEq

namespace LexicalError

def offset : LexicalError → Nat
  | unexpectedCharacter _ offset | endsInPoint _ offset => offset

def message : LexicalError → String
  | unexpectedCharacter character offset =>
    s!"Unexpected character: '{character}' (at position {offset})"
  | endsInPoint numeral offset =>
    s!"Numeric literal cannot end in a period: \"{numeral}\" (at position {offset})"

end LexicalError

namespace Token

def isBlank (c : Char) : Bool :=
  c = ' ' || c = '\t' || c = '\n'

/-- The symbols that one character spells, whatever follows it. -/
def symbolOf? : Char → Option Symbol
  | '-' => some .minus
  | '*' => some .star
  | '/' => some .slash
  | '^' => some .caret
  | '±' => some .plusMinus
  | 'e' => some .euler
  | 'π' => some .pi
  | '(' => some .leftParen
  | ')' => some .rightParen
  | _ => none

/-- The longest run of digits at the front that holds at most one point, none if one was passed. -/
def numeralRun (pointPassed : Bool) : List Char → List Char
  | [] => []
  | c :: rest =>
    if c.isDigit then c :: numeralRun pointPassed rest
    else if c = '.' && !pointPassed then c :: numeralRun true rest
    else []

def lexemeAt (offset : Nat) : List Char → Except LexicalError (Lexeme × List Char)
  | [] => .ok (.symbol .endOfInput, [])
  | '+' :: '-' :: _ => .ok (.symbol .plusMinus, ['+', '-'])
  | '+' :: _ => .ok (.symbol .plus, ['+'])
  | c :: rest =>
    match symbolOf? c with
    | some symbol => .ok (.symbol symbol, [c])
    | none =>
      let run := numeralRun false (c :: rest)
      if run.isEmpty then .error (.unexpectedCharacter c offset)
      else if run.getLast? = some '.' then .error (.endsInPoint (String.ofList run) offset)
      else .ok (.number (Literal.ofText (String.ofList run)), run)

/-- Reads on at `offset`, after passing over the `skip` characters that the last lexeme covers. -/
def scan (offset skip : Nat) : List Char → Except LexicalError (List Token)
  | [] => .ok [⟨.symbol .endOfInput, some offset⟩]
  | c :: rest =>
    match skip with
    | skip + 1 => scan (offset + 1) skip rest
    | 0 =>
      if isBlank c then scan (offset + 1) 0 rest
      else do
        let (lexeme, spelling) ← lexemeAt offset (c :: rest)
        let tokens ← scan (offset + 1) (spelling.length - 1) rest
        return ⟨lexeme, some offset⟩ :: tokens

def tokenize (text : String) : Except LexicalError (List Token) :=
  scan 0 0 text.toList

end Token
end Uncertainty

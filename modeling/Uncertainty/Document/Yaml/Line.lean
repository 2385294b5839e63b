/-!
The lines of a text. A line keeps its indentation apart from its content, and the break that ends
it, which the last line lacks. Two of the breaks stand for themselves, all others mean the same.
-/
namespace Uncertainty.Yaml

def isBreak (c : Char) : Bool :=
  c = '\n' || c = '\u2028' || c = '\u2029'

def isSpacing (c : Char) : Bool :=
  c = ' ' || c = '\t'

/-- Writes all breaks that mean the same in one way. -/
def unifyBreaks : List Char → List Char
  | [] => []
  | '\r' :: '\n' :: rest => '\n' :: unifyBreaks rest
  | c :: rest => (if c = '\r' || c = '\u0085' then '\n' else c) :: unifyBreaks rest

def atBreak : List Char → Bool
  | [] => true
  | c :: _ => isBreak c

def atBlank : List Char → Bool
  | [] => true
  | c :: _ => isSpacing c || isBreak c

/-- What ends here cannot be followed by a tab. -/
def atSpace : List Char → Bool
  | [] => true
  | c :: _ => c = ' ' || isBreak c

def trimStart (characters : List Char) : List Char :=
  characters.dropWhile (· = ' ')

def isClosed (characters : List Char) : Bool :=
  let rest := trimStart characters
  atBreak rest || rest.head? = some '#'

def skipLine (characters : List Char) : List Char :=
  characters.dropWhile (!isBreak ·)

/-- Three of a sign at the start of a line mark the start or the end of a document. -/
def isMark (sign : Char) : List Char → Bool
  | a :: b :: c :: rest => a = sign && b = sign && c = sign && atBlank rest
  | _ => false

def isEitherMark (characters : List Char) : Bool :=
  isMark '-' characters || isMark '.' characters

structure Line where
  indent : Nat
  content : List Char
  ending : Option Char
deriving DecidableEq

namespace Line

def ended (indent : Nat) (content : List Char) : Line :=
  ⟨indent, content, some '\n'⟩

def write (line : Line) : List Char :=
  List.replicate line.indent ' ' ++ line.content ++ line.ending.toList

def ofCharacters (characters : List Char) (ending : Option Char) : Line :=
  let content := characters.dropWhile (· = ' ')
  ⟨characters.length - content.length, content, ending⟩

end Line

def cutLines : List Char → List (List Char × Option Char)
  | [] => [([], none)]
  | c :: rest =>
    if isBreak c then ([], some c) :: cutLines rest
    else match cutLines rest with
      | [] => [([c], none)]
      | (line, ending) :: lines => (c :: line, ending) :: lines

def linesOf (characters : List Char) : List Line :=
  (cutLines characters).map fun (line, ending) => .ofCharacters line ending

/-- What stands between the texts of two lines of one scalar: a space for the break that ends the
first, or else the breaks of the empty lines between them. A break that stands for itself stays. -/
def separator (ending : Char) (breaks : List Char) : List Char :=
  if ending ≠ '\n' then ending :: breaks
  else if breaks.isEmpty then [' ']
  else breaks

structure Gap where
  breaks : List Char
  column : Nat
  rest : List Char

namespace Gap

def read (isBlank : Char → Bool) (column : Nat) : List Char → Gap
  | [] => ⟨[], column, []⟩
  | c :: rest =>
    if isBlank c then read isBlank (column + 1) rest
    else if isBreak c then
      let gap := read isBlank 0 rest
      { gap with breaks := c :: gap.breaks }
    else ⟨[], column, c :: rest⟩

def isMarked (gap : Gap) : Bool :=
  gap.column = 0 && isEitherMark gap.rest

end Gap
end Uncertainty.Yaml

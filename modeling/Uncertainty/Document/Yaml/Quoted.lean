import Uncertainty.Document.Yaml.Fault
import Uncertainty.Document.Yaml.Line

/-!
Texts in quotes, which may run over several lines. Between double quotes there are escapes; between
single quotes a quote is written twice and all else stands for itself.
-/
namespace Uncertainty.Yaml

def escapes : List (Char × Char) :=
  [('0', '\x00'), ('a', '\x07'), ('b', '\x08'), ('t', '\t'), ('\t', '\t'), ('n', '\n'),
   ('v', '\x0b'), ('f', '\x0c'), ('r', '\r'), ('e', '\x1b'), (' ', ' '), ('"', '"'), ('\\', '\\'),
   ('/', '/'), ('N', '\u0085'), ('_', '\u00a0'), ('L', '\u2028'), ('P', '\u2029')]

def codeWidth? (letter : Char) : Option Nat :=
  [('x', 2), ('u', 4), ('U', 8)].lookup letter

def codedPoint (width : Nat) (characters : List Char) : Except Fault (CodePoint × List Char) :=
  let digits := characters.take width
  match if digits.length < width then none else Text.hexNumber? digits with
  | none => .error .malformed
  | some number =>
    match CodePoint.ofNumber? number with
    | some point => .ok (point, characters.drop width)
    | none => .error (if number < 0x80000000 then .noSuchCharacter else .characterTooLarge)

/-- The empty lines behind a break, with which no document may start or end. -/
def gapInside (characters : List Char) : Except Fault Gap :=
  let gap := Gap.read isSpacing 0 characters
  if gap.isMarked then .error .malformed else .ok gap

def characterPoints (characters : List Char) : List CodePoint :=
  characters.map .character

/-- What an escape stands for, and what follows it; a break that is escaped leaves nothing. -/
def escaped : List Char → Except Fault (List CodePoint × List Char)
  | [] => .error .malformed
  | c :: rest => do
    match escapes.lookup c, codeWidth? c with
    | some character, _ => return ([.character character], rest)
    | none, some width =>
      let (point, rest) ← codedPoint width rest
      return ([point], rest)
    | none, none =>
      if !isBreak c then throw .malformed
      let gap ← gapInside rest
      return (characterPoints gap.breaks, gap.rest)

/-- The text behind an opening quote up to the quote that ends it, and what follows that. Blanks on
either side of a break do not count. -/
def quoted (double : Bool) : Nat → List Char → Except Fault (List CodePoint × List Char)
  | fuel + 1, c :: rest => do
    if c = (if double then '"' else '\'') then
      if !double && rest.head? = some '\'' then
        let (text, rest) ← quoted double fuel (rest.drop 1)
        return (.character c :: text, rest)
      else return ([], rest)
    else if double && c = '\\' then
      let (points, rest) ← escaped rest
      let (text, rest) ← quoted double fuel rest
      return (points ++ text, rest)
    else
      match (c :: rest).dropWhile isSpacing with
      | [] => throw .malformed
      | ending :: below =>
        if isBreak ending then
          let gap ← gapInside below
          let (text, rest) ← quoted double fuel gap.rest
          return (characterPoints (separator ending gap.breaks) ++ text, rest)
        else
          let (text, rest) ← quoted double fuel rest
          return (.character c :: text, rest)
  | _, _ => .error .malformed

end Uncertainty.Yaml

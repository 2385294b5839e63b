import Uncertainty.Document.Yaml.BlockScalar
import Uncertainty.Document.Yaml.Plain
import Uncertainty.Document.Yaml.Quoted
import Uncertainty.Document.Yaml.Token

/-!
Cutting a text into marks. Besides its place in the text the lexer keeps the columns of the lists
and records in block style that are open, and of each level of brackets the last place where the
name of a field could have started.
-/
namespace Uncertainty.Yaml

/-- A place where the name of a field could start. One that is required has to be that of a name,
since a record in block style is open in its column. -/
structure Place where
  index : Nat
  line : Nat
  column : Nat
  isRequired : Bool

structure Lexer where
  rest : List Char
  index : Nat := 0
  line : Nat := 0
  column : Nat := 0
  columns : List Nat := []
  place : Option Place := none
  outer : List (Option Place) := []
  mayStartName : Bool := true

namespace Lexer

/-- Passes over a character. A byte order mark has no width. -/
def pass (lexer : Lexer) (c : Char) : Lexer :=
  let lexer := { lexer with rest := lexer.rest.drop 1, index := lexer.index + 1 }
  if isBreak c then { lexer with line := lexer.line + 1, column := 0 }
  else if c = '\ufeff' then lexer
  else { lexer with column := lexer.column + 1 }

def passAll (characters : List Char) (lexer : Lexer) : Lexer :=
  characters.foldl pass lexer

def before (rest : List Char) (lexer : Lexer) : List Char :=
  lexer.rest.take (lexer.rest.length - rest.length)

def inFlow (lexer : Lexer) : Bool :=
  !lexer.outer.isEmpty

def indent (lexer : Lexer) : Int :=
  (lexer.columns.head?.map Int.ofNat).getD (-1)

/-- Whether a place is still where a name could have started: it is on this line, not far back. -/
def isNear (lexer : Lexer) (place : Place) : Bool :=
  place.line = lexer.line && lexer.index - place.index ≤ 1024

def dropFar (lexer : Lexer) (place : Option Place) : Except Fault (Option Place) :=
  match place with
  | none => .ok none
  | some p =>
    if lexer.isNear p then .ok place else if p.isRequired then .error .malformed else .ok none

def dropPlace (lexer : Lexer) : Except Fault Lexer :=
  if lexer.place.any (·.isRequired) then .error .malformed else .ok { lexer with place := none }

/-- Passes over spaces, comments and breaks. Behind a break, in block style, a name may start. -/
def skipBlanks : Nat → Lexer → Lexer
  | 0, lexer => lexer
  | fuel + 1, lexer =>
    let lexer := lexer.passAll (lexer.rest.takeWhile (· = ' '))
    let comment := if lexer.rest.head? = some '#' then lexer.rest.takeWhile (!isBreak ·) else []
    let lexer := lexer.passAll comment
    match lexer.rest with
    | [] => lexer
    | c :: _ =>
      if isBreak c then
        skipBlanks fuel { lexer.pass c with mayStartName := lexer.mayStartName || !lexer.inFlow }
      else lexer

def toNext (fuel : Nat) (lexer : Lexer) : Except Fault Lexer := do
  let lexer := skipBlanks fuel lexer
  let place ← lexer.dropFar lexer.place
  let outer ← lexer.outer.mapM lexer.dropFar
  return { lexer with place, outer }

def close (isOpen : Nat → Bool) (lexer : Lexer) : List Mark × Lexer :=
  if lexer.inFlow then ([], lexer)
  else
    ((lexer.columns.takeWhile (!isOpen ·)).map fun _ => .token .blockEnd,
      { lexer with columns := lexer.columns.dropWhile (!isOpen ·) })

def openAt (column : Nat) (lexer : Lexer) : Bool × Lexer :=
  if !lexer.inFlow && lexer.indent < column then
    (true, { lexer with columns := column :: lexer.columns })
  else (false, lexer)

abbrev Step := Except Fault (List Mark × Lexer)

def nameable (token : Token) (characters : List Char) (lexer : Lexer) : Step :=
  let after (marks : List Mark) (lexer : Lexer) : Step :=
    .ok (marks ++ [.token token], { lexer.passAll characters with mayStartName := false })
  if lexer.mayStartName then do
    let lexer ← lexer.dropPlace
    let isRequired := !lexer.inFlow && lexer.indent = lexer.column
    after [.place lexer.index]
      { lexer with place := some ⟨lexer.index, lexer.line, lexer.column, isRequired⟩ }
  else after [] lexer

def unnameable (token : Token) (characters : List Char) (mayStartName : Bool) (lexer : Lexer) :
    Step := do
  let lexer ← lexer.dropPlace
  return ([.token token], { lexer.passAll characters with mayStartName })

/-- The mark of the start or end of a document, or a directive; nothing stays open before it. -/
def betweenDocuments (token : Token) (characters : List Char) (lexer : Lexer) : Step := do
  let (closed, lexer) := lexer.close fun _ => false
  let (marks, lexer) ← lexer.unnameable token characters false
  return (closed ++ marks, lexer)

def sign (opening token : Token) (c : Char) (mayStartName : Bool) (lexer : Lexer) : Step := do
  if !lexer.inFlow && !lexer.mayStartName then throw .malformed
  let (opens, lexer) := lexer.openAt lexer.column
  let (marks, lexer) ← lexer.unnameable token [c] mayStartName
  return ((if opens then [.token opening] else []) ++ marks, lexer)

/-- The colon behind a name; without one that could end here it stands for itself. -/
def colon (lexer : Lexer) : Step :=
  match lexer.place with
  | some place =>
    let (opens, lexer) := openAt place.column { lexer with place := none }
    .ok ([.named place.index opens], { lexer.pass ':' with mayStartName := false })
  | none => lexer.sign .blockRecord .value ':' !lexer.inFlow

def openBracket (token : Token) (c : Char) (lexer : Lexer) : Step := do
  let (marks, lexer) ← lexer.nameable token [c]
  return (marks,
    { lexer with place := none, outer := lexer.place :: lexer.outer, mayStartName := true })

def closeBracket (token : Token) (c : Char) (lexer : Lexer) : Step := do
  let (marks, lexer) ← lexer.unnameable token [c] false
  match lexer.outer with
  | [] => throw .malformed
  | place :: outer => return (marks, { lexer with place, outer })

def nameableRead {α : Type} (token : α → Token) (read : Option (α × List Char)) (lexer : Lexer) :
    Step :=
  match read with
  | some (value, rest) => lexer.nameable (token value) (lexer.before rest)
  | none => .error .malformed

def plain (lexer : Lexer) : Step := do
  let found := Plain.read lexer.inFlow (lexer.indent + 1).toNat lexer.rest.length lexer.rest
  let (marks, lexer) ←
    lexer.nameable (.scalar true (String.ofList found.text)) (lexer.before found.rest)
  return (marks, { lexer with mayStartName := found.endsLine })

def quotedScalar (double : Bool) (rest : List Char) (lexer : Lexer) : Step := do
  let (text, rest) ← quoted double (rest.length + 1) rest
  lexer.nameable (.scalar false ⟨text⟩) (lexer.before rest)

def blockScalar (folded : Bool) (rest : List Char) (lexer : Lexer) : Step :=
  match blockScalar? folded lexer.indent rest with
  | some (text, rest) => lexer.unnameable (.scalar false text) (lexer.before rest) true
  | none => .error .malformed

def next (c : Char) (rest : List Char) (lexer : Lexer) : Step :=
  let atStart := lexer.column = 0
  let isSign := atBlank rest || lexer.inFlow
  if atStart && c = '%' then
    match Directive.read? rest with
    | some (directive, rest) =>
      lexer.betweenDocuments (.directive directive) (lexer.before rest)
    | none => .error .malformed
  else if atStart && isMark '-' (c :: rest) then
    lexer.betweenDocuments .documentStart ['-', '-', '-']
  else if atStart && isMark '.' (c :: rest) then
    lexer.betweenDocuments .documentEnd ['.', '.', '.']
  else if c = '[' then lexer.openBracket .openList c
  else if c = '\x7b' then lexer.openBracket .openRecord c
  else if c = ']' then lexer.closeBracket .closeList c
  else if c = '\x7d' then lexer.closeBracket .closeRecord c
  else if c = ',' then lexer.unnameable .comma [c] true
  else if c = '-' && atBlank rest then lexer.sign .blockList .item c true
  else if c = '?' && isSign then lexer.sign .blockRecord .name c !lexer.inFlow
  else if c = ':' && isSign then lexer.colon
  else if c = '*' then lexer.nameableRead .alias (anchorName? rest)
  else if c = '&' then lexer.nameableRead .anchor (anchorName? rest)
  else if c = '!' then lexer.nameableRead .tag (Shorthand.read? rest)
  else if c = '|' && !lexer.inFlow then lexer.blockScalar false rest
  else if c = '>' && !lexer.inFlow then lexer.blockScalar true rest
  else if c = '\'' then lexer.quotedScalar false rest
  else if c = '"' then lexer.quotedScalar true rest
  else if startsPlain lexer.inFlow (c :: rest) then lexer.plain
  else .error .malformed

def ending (lexer : Lexer) : List Mark :=
  let (closed, lexer) := lexer.close fun _ => false
  match lexer.dropPlace with
  | .ok _ => closed ++ [.token .textEnd]
  | .error reason => closed ++ [.token (.fault reason)]

/-- The marks from a place on. Those behind a fault are not looked for. -/
def marks : Nat → Lexer → List Mark
  | 0, _ => [.token (.fault .malformed)]
  | fuel + 1, lexer =>
    match lexer.toNext (fuel + 1) with
    | .error reason => [.token (.fault reason)]
    | .ok lexer =>
      let (closed, lexer) := lexer.close (· ≤ lexer.column)
      closed ++ match lexer.rest with
        | [] => lexer.ending
        | c :: rest =>
          match lexer.next c rest with
          | .error reason => [.token (.fault reason)]
          | .ok (found, lexer) => found ++ marks fuel lexer

end Lexer

def withoutMark : List Char → List Char
  | '\ufeff' :: rest => rest
  | characters => characters

def Token.tokens (text : List Char) : List Token :=
  let rest := unifyBreaks (withoutMark text)
  Mark.tokens (Lexer.marks (rest.length + 1) { rest })

end Uncertainty.Yaml

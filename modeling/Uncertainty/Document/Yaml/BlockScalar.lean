import Uncertainty.Text
import Uncertainty.Document.Yaml.Line

/-!
Scalars that take whole lines below their sign. A bar keeps the breaks between the lines; an angle
folds those between two lines that do not start with a blank.
-/
namespace Uncertainty.Yaml

/-- What becomes of the breaks at the end: all but the first are dropped, or all, or none. -/
inductive Chomping where
  | clip
  | strip
  | keep
deriving DecidableEq

structure BlockSign where
  folded : Bool
  chomping : Chomping
  columns : Option Nat

namespace BlockSign

def chomping? (c : Char) : Option Chomping :=
  if c = '+' then some .keep else if c = '-' then some .strip else none

def columns? (c : Char) : Option Nat :=
  if '1' ≤ c && c ≤ '9' then some (c.toNat - 48) else none

def read? (folded : Bool) : List Char → Option BlockSign
  | [] => some ⟨folded, .clip, none⟩
  | [a] =>
    match chomping? a, columns? a with
    | some chomping, _ => some ⟨folded, chomping, none⟩
    | none, some columns => some ⟨folded, .clip, some columns⟩
    | none, none => none
  | [a, b] =>
    match chomping? a, columns? b, columns? a, chomping? b with
    | some chomping, some columns, _, _ => some ⟨folded, chomping, some columns⟩
    | _, _, some columns, some chomping => some ⟨folded, chomping, some columns⟩
    | _, _, _, _ => none
  | _ => none

/-- The column in which the lines of the scalar start: as the sign says, or that of its first line,
or of the empty lines before it if one of those is longer. -/
def column (sign : BlockSign) (parent : Int) (lines : List Line) : Nat :=
  let least := (max (parent + 1) 1).toNat
  match sign.columns with
  | some columns => least + columns - 1
  | none =>
    let empty := lines.takeWhile (·.content.isEmpty)
    let first := lines.drop empty.length
    max least (((empty ++ first.take 1).map (·.indent)).foldl max 0)

end BlockSign

def textFrom? (column : Nat) (line : Line) : Option (List Char) :=
  let text := List.replicate (line.indent - column) ' ' ++ line.content
  if text.isEmpty then none else some text

def startsBlank (text : List Char) : Bool :=
  text.head?.any fun c => c = ' ' || c = '\t'

/-- The text of the lines of a block scalar. `last` tells of the line before, if there is one,
whether it starts with a blank and how it ends; `breaks` are those of the empty lines since. -/
def blockText (sign : BlockSign) (column : Nat) (last : Option (Bool × Option Char))
    (breaks : List Char) : List Line → List Char
  | [] =>
    let ending := (last.bind (·.2)).toList
    match sign.chomping with
    | .strip => []
    | .clip => ending
    | .keep => ending ++ breaks
  | line :: below =>
    match textFrom? column line with
    | none => blockText sign column last (breaks ++ line.ending.toList) below
    | some text =>
      let front := match last with
        | none => breaks
        | some (blank, ending) =>
          if sign.folded && ending = some '\n' && !blank && !startsBlank text then
            if breaks.isEmpty then [' '] else breaks
          else ending.toList ++ breaks
      front ++ text ++ blockText sign column (some (startsBlank text, line.ending)) [] below

/-- The block scalar below its sign, inside something that stands in the column `parent`, given the
text behind the first character of the sign. -/
def blockScalar? (folded : Bool) (parent : Int) (characters : List Char) :
    Option (Text × List Char) := do
  let sign ← BlockSign.read? folded (characters.takeWhile fun c => c ≠ ' ' && !isBreak c)
  if !isClosed (characters.dropWhile fun c => c ≠ ' ' && !isBreak c) then none
  let below := match skipLine characters with
    | [] => []
    | _ :: rest => linesOf rest
  let column := sign.column parent below
  let isPart (line : Line) := line.content.isEmpty || column ≤ line.indent
  return (⟨(blockText sign column none [] (below.takeWhile isPart)).map .character⟩,
    (below.dropWhile isPart).flatMap Line.write)

end Uncertainty.Yaml

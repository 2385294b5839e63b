import Uncertainty.Document.Yaml.Line

/-!
Plain scalars: where they start and end, and how they run over several lines.
-/
namespace Uncertainty.Yaml

def isIndicator (c : Char) : Bool :=
  "-?:,[]\x7b\x7d#&*!|>'\"%@\x60".toList.contains c

def isFlowSign (c : Char) : Bool :=
  ",[]\x7b\x7d".toList.contains c

/-- A colon is a sign before a blank, in flow style also before the signs of that style. -/
def endsAtColon (inFlow : Bool) (rest : List Char) : Bool :=
  atBlank rest || (inFlow && rest.head?.any isFlowSign)

/-- A plain scalar may start with an indicator only if that is a dash or, in block style, one of
the signs for names and values, and no blank follows. -/
def startsPlain (inFlow : Bool) : List Char → Bool
  | [] => false
  | c :: rest =>
    if isSpacing c || isBreak c then false
    else if isIndicator c then
      (c = '-' || (!inFlow && (c = '?' || c = ':'))) && !atBlank rest
    else true

def plainRun (inFlow : Bool) : List Char → List Char × List Char
  | [] => ([], [])
  | c :: rest =>
    if isSpacing c || isBreak c || (c = ':' && endsAtColon inFlow rest)
      || (inFlow && (c = '?' || isFlowSign c)) then ([], c :: rest)
    else
      let (run, left) := plainRun inFlow rest
      (c :: run, left)

/-- A plain scalar that has been read, what follows the blanks behind it, and whether a line has
ended among these. -/
structure Plain where
  text : List Char
  rest : List Char
  endsLine : Bool

namespace Plain

def join (run gap : List Char) (endsLine : Bool) (rest : List Char) (more : Plain) : Plain :=
  if more.text.isEmpty then ⟨run, rest, endsLine⟩
  else { more with text := run ++ gap ++ more.text }

/-- The plain scalar at the front of a text. In block style its further lines start in the column
`least` or behind it. -/
def read (inFlow : Bool) (least : Nat) : Nat → List Char → Plain
  | 0, characters => ⟨[], characters, false⟩
  | fuel + 1, characters =>
    let (run, rest) := plainRun inFlow characters
    if run.isEmpty then ⟨[], characters, false⟩
    else
      let blanks := rest.takeWhile (· = ' ')
      let next := trimStart rest
      match next with
      | [] => ⟨run, next, false⟩
      | c :: below =>
        if isBreak c then
          let gap := Gap.read (· = ' ') 0 below
          if gap.isMarked || gap.rest.head? = some '#' || (!inFlow && gap.column < least) then
            ⟨run, gap.rest, true⟩
          else
            join run (separator c gap.breaks) true gap.rest (read inFlow least fuel gap.rest)
        else if c = '#' || blanks.isEmpty then ⟨run, next, false⟩
        else
          join run blanks false next (read inFlow least fuel next)

end Plain
end Uncertainty.Yaml

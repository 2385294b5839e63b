import Uncertainty.Binary64.Numeral
import Uncertainty.Document.Moment

/-!
Days and instants as they are written: the parts of a day with dashes between them, and behind a
blank or a letter those of a time with colons, perhaps with a fraction and a zone.
-/
namespace Uncertainty.Yaml

/-- A number of one or two digits, or of as many as are asked for, and what follows them. -/
def numberOf? (least most : Nat) (characters : List Char) : Option (Nat × List Char) :=
  let digits := characters.takeWhile Char.isDigit
  if least ≤ digits.length && digits.length ≤ most then
    some (Binary64.Numeral.value digits, characters.drop digits.length)
  else none

def behindSign? (sign : Char) : List Char → Option (List Char)
  | c :: rest => if c = sign then some rest else none
  | [] => none

def isBlankInside (c : Char) : Bool :=
  c = ' ' || c = '\t'

def day? (least : Nat) (characters : List Char) : Option (Day × List Char) := do
  let (year, rest) ← numberOf? 4 4 characters
  let (month, rest) ← numberOf? least 2 (← behindSign? '-' rest)
  let (day, rest) ← numberOf? least 2 (← behindSign? '-' rest)
  return (⟨year, month, day⟩, rest)

def zone? : List Char → Option Int
  | ['Z'] => some 0
  | sign :: rest => do
    if sign ≠ '-' && sign ≠ '+' then none
    let (hours, rest) ← numberOf? 1 2 rest
    let minutes ← match rest with
      | [] => some 0
      | rest => do
        let (minutes, rest) ← numberOf? 2 2 (← behindSign? ':' rest)
        if rest.isEmpty then some minutes else none
    return Binary64.signed (sign = '-') (60 * hours + minutes)
  | [] => none

/-- The first six digits behind the point count. -/
def microseconds (digits : List Char) : Nat :=
  Binary64.Numeral.value ((digits ++ List.replicate 6 '0').take 6)

def dayTime? (characters : List Char) : Option DayTime := do
  let (hour, rest) ← numberOf? 1 2 characters
  let (minute, rest) ← numberOf? 2 2 (← behindSign? ':' rest)
  let (second, rest) ← numberOf? 2 2 (← behindSign? ':' rest)
  let (fraction, rest) := match rest with
    | '.' :: rest => (rest.takeWhile Char.isDigit, rest.dropWhile Char.isDigit)
    | rest => ([], rest)
  let time : DayTime := ⟨hour, minute, second, microseconds fraction, none⟩
  if rest.isEmpty then return time
  return { time with zone := some (← zone? (rest.dropWhile isBlankInside)) }

def behindDay? : List Char → Option (List Char)
  | 'T' :: rest | 't' :: rest => some rest
  | c :: rest => if isBlankInside c then some (rest.dropWhile isBlankInside) else none
  | [] => none

/-- The moment that a text writes. A day without a time has at least `least` digits in its parts. -/
def moment? (least : Nat) (characters : List Char) : Option Moment :=
  match day? least characters with
  | some (day, []) => some (.day day)
  | _ => do
    let (day, rest) ← day? 1 characters
    return .instant day (← dayTime? (← behindDay? rest))

def isMoment (characters : List Char) : Bool :=
  (moment? 2 characters).isSome

end Uncertainty.Yaml

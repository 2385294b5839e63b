import Uncertainty.Binary64.Numeral
import Uncertainty.Document.Yaml.Moment

/-!
Tags say what kind of data a node is. A plain scalar without a tag has that of the form in which it
is written; all forms are told apart by their characters alone.
-/
namespace Uncertainty.Yaml

inductive Tag where
  | null
  | boolean
  | integer
  | real
  | text
  | bytes
  | moment
  | list
  | pairs
  | orderedPairs
  | set
  | record
  | merge
  | value
  | unknown
deriving DecidableEq

namespace Tag

def names : List (String × Tag) :=
  [("null", null), ("bool", boolean), ("int", integer), ("float", real), ("str", text),
   ("binary", bytes), ("timestamp", moment), ("seq", list), ("pairs", pairs),
   ("omap", orderedPairs), ("set", set), ("map", record), ("merge", merge), ("value", value)]

def address : List Char :=
  "tag:yaml.org,2002:".toList

def ofAddress (characters : List Char) : Tag :=
  if address.isPrefixOf characters then
    (names.lookup (String.ofList (characters.drop address.length))).getD unknown
  else unknown

def truthWords : List (String × Bool) :=
  ["yes", "true", "on"].map (·, true) ++ ["no", "false", "off"].map (·, false)

def spellings (word : String) : List String :=
  [word, word.capitalize, word.map Char.toUpper]

def words : List (String × Tag) :=
  [("", null), ("~", null), ("<<", merge), ("=", value)]
    ++ (spellings "null").map (·, null)
    ++ (truthWords.flatMap fun word => spellings word.1).map (·, boolean)
    ++ ([".nan", ".NaN", ".NAN"] ++ ["", "+", "-"].flatMap fun sign =>
        [".inf", ".Inf", ".INF"].map (sign ++ ·)).map (·, real)

def isDigitOrGap (c : Char) : Bool := c.isDigit || c = '_'
def isBinaryDigit (c : Char) : Bool := c = '0' || c = '1' || c = '_'
def isOctalDigit (c : Char) : Bool := ('0' ≤ c && c ≤ '7') || c = '_'
def isHexDigit (c : Char) : Bool := isDigitOrGap c || ('a' ≤ c.toLower && c.toLower ≤ 'f')

def nonempty (isPart : Char → Bool) (characters : List Char) : Bool :=
  !characters.isEmpty && characters.all isPart

def splitAtColons : List Char → List (List Char)
  | [] => [[]]
  | ':' :: rest => [] :: splitAtColons rest
  | c :: rest =>
    match splitAtColons rest with
    | [] => [[c]]
    | part :: parts => (c :: part) :: parts

def isSixtieth : List Char → Bool
  | [b] => b.isDigit
  | [a, b] => '0' ≤ a && a ≤ '5' && b.isDigit
  | _ => false

def isSexagesimal (isFirst : List Char → Bool) (characters : List Char) : Bool :=
  match splitAtColons characters with
  | first :: second :: more => isFirst first && (second :: more).all isSixtieth
  | _ => false

def startsWithDigit (characters : List Char) : Bool :=
  characters.head?.any Char.isDigit

/-- An unsigned integer: binary, octal, hexadecimal, decimal without a zero in front, or in base
sixty. -/
def isNatural : List Char → Bool
  | ['0'] => true
  | '0' :: 'b' :: digits => nonempty isBinaryDigit digits
  | '0' :: 'x' :: digits => nonempty isHexDigit digits
  | '0' :: digits => nonempty isOctalDigit digits
  | characters =>
    let isFirst (digits : List Char) := startsWithDigit digits && digits.all isDigitOrGap
    isFirst characters || isSexagesimal isFirst characters

def isExponent : List Char → Bool
  | [] => true
  | mark :: sign :: digits =>
    (mark = 'e' || mark = 'E') && (sign = '-' || sign = '+') && nonempty Char.isDigit digits
  | _ => false

/-- An unsigned number with a point; an exponent needs a sign. -/
def isFraction (characters : List Char) : Bool :=
  let integral := characters.takeWhile isDigitOrGap
  match characters.dropWhile isDigitOrGap with
  | '.' :: rest =>
    startsWithDigit (if integral.isEmpty then rest else integral)
      && isExponent (rest.dropWhile isDigitOrGap)
  | _ => false

def isSexagesimalFraction (characters : List Char) : Bool :=
  match characters.dropWhile (· ≠ '.') with
  | '.' :: fractional =>
    fractional.all isDigitOrGap
      && isSexagesimal (fun first => startsWithDigit first && first.all isDigitOrGap)
        (characters.takeWhile (· ≠ '.'))
  | _ => false

/-- A number with a point in front takes no sign. -/
def isReal (characters : List Char) : Bool :=
  let unsigned := (Binary64.Numeral.takeSign characters).2
  (unsigned.head? ≠ some '.' || unsigned.length = characters.length)
    && (isFraction unsigned || isSexagesimalFraction unsigned)

def ofPlain (characters : List Char) : Tag :=
  match words.lookup (String.ofList characters) with
  | some tag => tag
  | none =>
    if isReal characters then real
    else if isNatural (Binary64.Numeral.takeSign characters).2 then integer
    else if isMoment characters then moment
    else text

end Tag
end Uncertainty.Yaml

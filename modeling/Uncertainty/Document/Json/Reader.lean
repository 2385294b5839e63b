import Uncertainty.Document.Json.Printer
import Uncertainty.Text.Integer

/-!
Reading JSON. A text is first cut into items, brackets and separators on the one hand and scalars on
the other, and the items are then read as a document.
-/
namespace Uncertainty.Json

inductive Fault where
  | malformed
  | integer (reason : IntegerError)
deriving DecidableEq

def Fault.message : Fault → String
  | malformed => ""
  | integer reason => reason.message

/-- Nothing is said about what stands behind a fault. -/
inductive Item where
  | mark (c : Char)
  | scalar (s : Scalar)
  | fault (reason : Fault)

def joined? (high low : Nat) : Option Char :=
  if 0xD800 ≤ high ∧ high < 0xDC00 ∧ 0xDC00 ≤ low ∧ low < 0xE000 then
    some (Char.ofNat (0x10000 + (high - 0xD800) * 0x400 + (low - 0xDC00)))
  else none

/-- The code point written by four digits, or together with four digits behind a further escape. -/
def codePoint? : List Char → Option (CodePoint × List Char)
  | a :: b :: c :: d :: rest => do
    let unit ← Text.hexNumber? [a, b, c, d]
    let pair := match rest with
      | '\\' :: 'u' :: e :: f :: g :: h :: rest => do
        let joined ← joined? unit (← Text.hexNumber? [e, f, g, h])
        pure (.character joined, rest)
      | _ => none
    pair <|> (CodePoint.ofNumber? unit).map (·, rest)
  | _ => none

def unescape? (letter : Char) : Option Char :=
  if letter = '/' then some '/'
  else (escapes.find? (·.2 = letter)).map (·.1)

/-- The rest of a string behind its opening quote, and what follows the closing one. -/
def readText : Nat → List Char → Option (List CodePoint × List Char)
  | 0, _ | _, [] => none
  | _ + 1, '"' :: rest => some ([], rest)
  | fuel + 1, '\\' :: 'u' :: rest => do
    let (point, rest) ← codePoint? rest
    let (text, rest) ← readText fuel rest
    return (point :: text, rest)
  | fuel + 1, '\\' :: letter :: rest => do
    let c ← unescape? letter
    let (text, rest) ← readText fuel rest
    return (.character c :: text, rest)
  | fuel + 1, c :: rest => do
    if c = '\\' || c.toNat < 0x20 then none
    else
      let (text, rest) ← readText fuel rest
      return (.character c :: text, rest)

def words : List (String × Scalar) :=
  [("null", .null), ("true", .boolean true), ("false", .boolean false), ("NaN", .real .nan),
   ("Infinity", .real (.infinite false)), ("-Infinity", .real (.infinite true))]

def digitsAfter (isMark : Char → Bool) : List Char → Option (List Char × List Char)
  | mark :: rest =>
    let digits := rest.takeWhile Char.isDigit
    if isMark mark && !digits.isEmpty then some (digits, rest.dropWhile Char.isDigit) else none
  | [] => none

def exponentAfter (characters : List Char) : Option (Int × List Char) :=
  let (negative, characters) := match characters with
    | mark :: '-' :: rest => (true, mark :: rest)
    | mark :: '+' :: rest => (false, mark :: rest)
    | rest => (false, rest)
  (digitsAfter (fun c => c = 'e' || c = 'E') characters).map fun (digits, rest) =>
    (Binary64.signed negative (Binary64.Numeral.value digits), rest)

def readNumber (characters : List Char) : Option (Item × List Char) :=
  let (negative, unsigned) := match characters with
    | '-' :: rest => (true, rest)
    | rest => (false, rest)
  let run := unsigned.takeWhile Char.isDigit
  let integral := if run.head? = some '0' then ['0'] else run
  if integral.isEmpty then none
  else
    let rest := unsigned.drop integral.length
    let fraction := digitsAfter (· = '.') rest
    let digits := (fraction.map (·.1)).getD []
    let rest := (fraction.map (·.2)).getD rest
    let power := exponentAfter rest
    if fraction.isNone && power.isNone then
      match Text.integer 10 integral with
      | .ok n => some (.scalar (.integer (if negative then -n else n)), rest)
      | .error reason => some (.fault (.integer reason), rest)
    else
      let exponent := (power.map (·.1)).getD 0 - digits.length
      let coefficient := Binary64.Numeral.value (integral ++ digits)
      some (.scalar (.real (Binary64.ofDecimal negative coefficient exponent)),
        (power.map (·.2)).getD rest)

def isMark (c : Char) : Bool :=
  c = '[' || c = ']' || c = '\x7b' || c = '\x7d' || c = ':' || c = ','

def isBlank (c : Char) : Bool :=
  c = ' ' || c = '\t' || c = '\n' || c = '\r'

/-- The items of a text; where a character belongs to no item there is a fault. -/
def itemsOf : Nat → List Char → List Item
  | _, [] => []
  | 0, _ => [.fault .malformed]
  | fuel + 1, c :: rest =>
    if isBlank c then itemsOf fuel rest
    else if isMark c then .mark c :: itemsOf fuel rest
    else if c = '"' then
      match readText (fuel + 1) rest with
      | some (text, rest) => .scalar (.text ⟨text⟩) :: itemsOf fuel rest
      | none => [.fault .malformed]
    else
      match words.find? (·.1.toList.isPrefixOf (c :: rest)) with
      | some (word, s) => .scalar s :: itemsOf fuel ((c :: rest).drop word.length)
      | none =>
        match readNumber (c :: rest) with
        | some (item, rest) => item :: itemsOf fuel rest
        | none => [.fault .malformed]

mutual

def value : Nat → List Item → Except Fault (Document × List Item)
  | _ + 1, .scalar s :: rest => .ok (.scalar s, rest)
  | _ + 1, .fault reason :: _ => .error reason
  | _ + 1, .mark '[' :: .mark ']' :: rest => .ok (.list [], rest)
  | fuel + 1, .mark '[' :: rest => do
    let (items, rest) ← listItems fuel rest
    return (.list items, rest)
  | _ + 1, .mark '\x7b' :: .mark '\x7d' :: rest => .ok (.record [], rest)
  | fuel + 1, .mark '\x7b' :: rest => do
    let (fields, rest) ← recordFields fuel rest
    return (.ofFields fields, rest)
  | _, _ => .error .malformed

def listItems : Nat → List Item → Except Fault (List Document × List Item)
  | 0, _ => .error .malformed
  | fuel + 1, items => do
    let (item, rest) ← value fuel items
    match rest with
    | .mark ',' :: rest =>
      let (others, rest) ← listItems fuel rest
      return (item :: others, rest)
    | .mark ']' :: rest => return ([item], rest)
    | _ => throw .malformed

def recordFields : Nat → List Item → Except Fault (List (Scalar × Document) × List Item)
  | fuel + 1, .scalar (.text name) :: .mark ':' :: items => do
    let (field, rest) ← value fuel items
    match rest with
    | .mark ',' :: rest =>
      let (others, rest) ← recordFields fuel rest
      return ((.text name, field) :: others, rest)
    | .mark '\x7d' :: rest => return ([(.text name, field)], rest)
    | _ => throw .malformed
  | _, _ => .error .malformed

end

def read (text : String) : Except Fault Document := do
  let items := itemsOf text.length text.toList
  let (document, rest) ← value (items.length + 1) items
  if rest.isEmpty then return document else throw .malformed

end Uncertainty.Json

import Uncertainty.Text.Integer
import Uncertainty.Document.Yaml.Line

/-!
Tags, anchors and directives as they are written. A tag is a handle that stands for the front of an
address, with the rest of the address behind it, or else a whole address.
-/
namespace Uncertainty.Yaml

def isNamePart (c : Char) : Bool :=
  c.isAlphanum || c = '-' || c = '_'

def anchorName? (characters : List Char) : Option (List Char × List Char) :=
  let name := characters.takeWhile isNamePart
  let rest := characters.dropWhile isNamePart
  if name.isEmpty || !(atBlank rest || rest.head?.any "?:,]\x7d%@\x60".toList.contains) then none
  else some (name, rest)

structure Shorthand where
  handle : Option (List Char)
  suffix : List Char
deriving DecidableEq

namespace Shorthand

def isAddressPart (c : Char) : Bool :=
  isNamePart c || ";/?:@&=+$,.!~*'()[]".toList.contains c

def escapedBytes : List Char → Option (List UInt8 × List Char)
  | '%' :: a :: b :: rest => do
    let byte ← Text.hexNumber? [a, b]
    let (bytes, rest) ← escapedBytes rest
    return (UInt8.ofNat byte :: bytes, rest)
  | ['%'] | ['%', _] => none
  | rest => some ([], rest)

/-- The longest address at the front, which may be empty; escapes write its characters by bytes. -/
def takeAddress : Nat → List Char → Option (List Char × List Char)
  | fuel + 1, c :: rest =>
    if c = '%' then do
      let (bytes, rest) ← escapedBytes (c :: rest)
      let front ← String.fromUTF8? ⟨bytes.toArray⟩
      let (address, rest) ← takeAddress fuel rest
      return (front.toList ++ address, rest)
    else if isAddressPart c then do
      let (address, rest) ← takeAddress fuel rest
      return (c :: address, rest)
    else some ([], c :: rest)
  | _, rest => some ([], rest)

def address? (characters : List Char) : Option (List Char × List Char) := do
  let (address, rest) ← takeAddress characters.length characters
  if address.isEmpty then none else some (address, rest)

/-- A handle at the front: a sign, or a word between two signs. -/
def handle? : List Char → Option (List Char × List Char)
  | '!' :: ' ' :: rest => some (['!'], ' ' :: rest)
  | '!' :: rest =>
    match rest.dropWhile isNamePart with
    | '!' :: below => some ('!' :: rest.takeWhile isNamePart ++ ['!'], below)
    | _ => none
  | _ => none

def read? (characters : List Char) : Option (Shorthand × List Char) := do
  let (tag, rest) ← match characters with
    | '<' :: address => do
      let (address, rest) ← address? address
      if rest.head? = some '>' then pure (⟨none, address⟩, rest.drop 1) else none
    | _ =>
      if atBlank characters then pure (⟨none, ['!']⟩, characters)
      else do
        let word := characters.takeWhile fun c => c ≠ ' ' && !isBreak c
        let (handle, rest) ←
          if word.contains '!' then handle? ('!' :: characters) else pure (['!'], characters)
        let (suffix, rest) ← address? rest
        pure (⟨some handle, suffix⟩, rest)
  if atSpace rest then some (tag, rest) else none

end Shorthand

inductive Directive where
  | version (major : Nat)
  | handle (name address : List Char)
  | other
deriving DecidableEq

namespace Directive

def number? (characters : List Char) : Option (Nat × List Char) :=
  let digits := characters.takeWhile Char.isDigit
  if digits.isEmpty then none
  else some (Binary64.Numeral.value digits, characters.dropWhile Char.isDigit)

def version? (characters : List Char) : Option (Directive × List Char) := do
  let (major, rest) ← number? characters
  if rest.head? ≠ some '.' then none
  let (_, rest) ← number? (rest.drop 1)
  if atSpace rest then some (version major, rest) else none

def handle? (characters : List Char) : Option (Directive × List Char) := do
  let (name, rest) ← Shorthand.handle? characters
  if rest.head? ≠ some ' ' then none
  let (address, rest) ← Shorthand.address? (trimStart rest)
  if atSpace rest then some (handle name address, rest) else none

def read? (characters : List Char) : Option (Directive × List Char) := do
  let word := characters.takeWhile isNamePart
  let rest := characters.dropWhile isNamePart
  if word.isEmpty || !atSpace rest then none
  let (directive, rest) ←
    if word = "YAML".toList then version? (trimStart rest)
    else if word = "TAG".toList then handle? (trimStart rest)
    else pure (other, skipLine rest)
  if isClosed rest then some (directive, skipLine rest) else none

end Directive
end Uncertainty.Yaml

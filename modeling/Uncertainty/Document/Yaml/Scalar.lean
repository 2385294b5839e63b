import Uncertainty.Binary64.Arithmetic
import Uncertainty.Document.Base64
import Uncertainty.Document.Scalar
import Uncertainty.Document.Yaml.Fault
import Uncertainty.Document.Yaml.Tag

/-!
The scalar that a text writes under a tag. A tag may be given to any text, also to one that is not
of its form.
-/
namespace Uncertainty.Yaml

def whole (base : Nat) (characters : List Char) : Except Fault Int :=
  (Text.integer base characters).mapError .integer

def integerOf (characters : List Char) : Except Fault Int := do
  let (negative, unsigned) := Binary64.Numeral.takeSign (characters.filter (· ≠ '_'))
  let n ← match unsigned with
    | [] => throw .emptyNumber
    | ['0'] => pure 0
    | '0' :: 'b' :: digits => whole 2 digits
    | '0' :: 'x' :: digits => whole 16 digits
    | '0' :: _ => whole 8 unsigned
    | _ =>
      if unsigned.contains ':' then
        return signed negative
          ((← (Tag.splitAtColons unsigned).mapM (whole 10)).foldl (60 * · + ·) 0)
      else whole 10 unsigned
  return signed negative n
where
  signed (negative : Bool) (n : Int) : Int := if negative then -n else n

def realPart (characters : List Char) : Except Fault Binary64 :=
  (Binary64.ofText? (String.ofList characters)).elim
    (.error (.notReal (String.ofList characters))) .ok

/-- Adds parts in base sixty, from the last one on, rounded after each. -/
def addSixtieths (sum : Binary64) (base : Nat) : List Binary64 → Except Fault Binary64
  | [] => .ok sum
  | part :: more =>
    match Binary64.ofInt? base with
    | some factor => addSixtieths (sum + part * factor) (60 * base) more
    | none => .error .baseTooLarge

def realOf (characters : List Char) : Except Fault Binary64 := do
  let characters := (characters.filter (· ≠ '_')).map Char.toLower
  if characters.isEmpty then throw .emptyNumber
  let (negative, unsigned) := Binary64.Numeral.takeSign characters
  let x ←
    if unsigned = ".inf".toList then pure .infinity
    else if unsigned = ".nan".toList then pure .nan
    else if unsigned.contains ':' then do
      addSixtieths .zero 1 (← (Tag.splitAtColons unsigned).mapM realPart).reverse
    else realPart unsigned
  return if negative then -x else x

def truthOf (characters : List Char) : Except Fault Bool :=
  let word := String.ofList (characters.map Char.toLower)
  (Tag.truthWords.lookup word).elim (.error (.notBoolean word)) .ok

def momentOf (characters : List Char) : Except Fault Moment := do
  let line := if characters.getLast? = some '\n' then characters.dropLast else characters
  let some moment := moment? 1 line | throw .notMoment
  moment.check.mapError .nonexistent
  return moment

def bytesOf (characters : List Char) : Except Fault (List UInt8) :=
  if characters.all (·.toNat < 128) then (Base64.decode? characters).elim (.error .malformed) .ok
  else .error .malformed

def scalarOf (tag : Tag) (characters : List Char) : Except Fault Scalar :=
  match tag with
  | .null => .ok .null
  | .boolean => (truthOf characters).map .boolean
  | .integer => (integerOf characters).map .integer
  | .real => (realOf characters).map .real
  | .text => .ok (.text (String.ofList characters))
  | .bytes => (bytesOf characters).map .bytes
  | .moment => (momentOf characters).map .moment
  | .list | .pairs | .orderedPairs | .set | .record | .merge | .value | .unknown =>
    .error .malformed

/-- What a text with halves writes: it is a text, and nothing else. -/
def halvedScalar (tag : Tag) (text : Text) : Except Fault Scalar :=
  match tag with
  | .null => .ok .null
  | .text => .ok (.text text)
  | .boolean => .error (.notBoolean text)
  | .integer => .error (.integer (.notNumeral 10 text))
  | .real => .error (.notReal text)
  | .moment => .error .notMoment
  | .bytes | .list | .pairs | .orderedPairs | .set | .record | .merge | .value | .unknown =>
    .error .malformed

def scalar (tag : Tag) (text : Text) : Except Fault Scalar :=
  match text.toString? with
  | some s => scalarOf tag s.toList
  | none => halvedScalar tag text

end Uncertainty.Yaml

import Uncertainty.Binary64.Shortest
import Uncertainty.Document.Moment
import Uncertainty.Text.Quoted

/-!
Data without parts, which may also name the fields of a record. Two numbers name the same field if
they have the same value, of whatever kind they are; a truth value counts as one or zero.
-/
namespace Uncertainty

inductive Scalar where
  | null
  | boolean (b : Bool)
  | integer (n : Int)
  | real (x : Binary64)
  | text (s : Text)
  | bytes (values : List UInt8)
  | moment (m : Moment)
deriving DecidableEq

namespace Scalar

instance : Inhabited Scalar := ⟨null⟩

instance : Coe String Scalar := ⟨fun s => text s⟩

def kind : Scalar → String
  | null => "NoneType"
  | boolean _ => "bool"
  | integer _ => "int"
  | real _ => "float"
  | text _ => "str"
  | bytes _ => "bytes"
  | moment m => m.kind

/-- Nothing, no, zero of either sign, and all that is empty. -/
def isVoid : Scalar → Bool
  | null => true
  | boolean b => !b
  | integer n => n = 0
  | real x => x.isZero
  | text s => s.isEmpty
  | bytes values => values.isEmpty
  | moment _ => false

def quotedByte (quote : Char) (byte : UInt8) : List Char :=
  if byte < 0x80 then Text.quotedCharacter quote (Char.ofNat byte.toNat)
  else '\\' :: 'x' :: Text.hex 2 byte.toNat

def quotedBytes (values : List UInt8) : String :=
  let holds (c : Char) := values.contains (UInt8.ofNat c.toNat)
  let quote := if holds '\'' && !holds '"' then '"' else '\''
  String.ofList ('b' :: quote :: values.flatMap (quotedByte quote) ++ [quote])

def display : Scalar → String
  | null => "None"
  | boolean b => if b then "True" else "False"
  | integer n => toString n
  | real x => x.toText
  | text s => Text.quoted s
  | bytes values => quotedBytes values
  | moment m => m.display

def displayBare : Scalar → String
  | text s => s.shown
  | moment m => m.text
  | scalar => scalar.display

def isNumber : Scalar → Bool
  | boolean _ | integer _ | real _ => true
  | _ => false

/-- The place of a number on the line: on which side of all finite numbers it is, and its value in
least units. Not-a-number has none. -/
def place? : Scalar → Option (Int × Int)
  | boolean b => some (0, if b then Binary64.unitsOfOne else 0)
  | integer n => some (0, n * Binary64.unitsOfOne)
  | real (.finite negative rank) => some (0, Binary64.units negative rank)
  | real (.infinite negative) => some (if negative then -1 else 1, 0)
  | _ => none

def sameName (a b : Scalar) : Bool :=
  a = b || (a.place?.isSome && a.place? = b.place?)

end Scalar
end Uncertainty

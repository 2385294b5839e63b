import Uncertainty.Document.Yaml.Fault
import Uncertainty.Document.Yaml.Tag.Shorthand

/-!
The tokens of a text. In block style it is the columns that open and close lists and records, and
the name of a field is known as such only by the colon behind it; a text is therefore first cut into
marks, among which are the places where such a name could start.
-/
namespace Uncertainty.Yaml

inductive Token where
  | directive (directive : Directive)
  | documentStart
  | documentEnd
  | textEnd
  | blockList
  | blockRecord
  | blockEnd
  | openList
  | closeList
  | openRecord
  | closeRecord
  | comma
  | item
  | name
  | value
  | alias (name : List Char)
  | anchor (name : List Char)
  | tag (shorthand : Shorthand)
  | scalar (isPlain : Bool) (text : Text)
  | fault (reason : Fault)
deriving DecidableEq

/-- A mark is a token, or a place where the name of a field could start, or the colon that makes a
name of what started there; this name may be the first of a record in block style. -/
inductive Mark where
  | token (token : Token)
  | place (index : Nat)
  | named (index : Nat) (opens : Bool)
deriving DecidableEq

namespace Mark

def tokensAt (index : Nat) (names : List (Nat × Bool)) : List Token :=
  match names.lookup index with
  | some opens => if opens then [.blockRecord, .name] else [.name]
  | none => []

/-- The tokens of some marks, and the names among these whose places are in front of them. -/
def resolve : List Mark → List Token × List (Nat × Bool)
  | [] => ([], [])
  | token t :: rest =>
    let (tokens, names) := resolve rest
    (t :: tokens, names)
  | place index :: rest =>
    let (tokens, names) := resolve rest
    (tokensAt index names ++ tokens, names.filter (·.1 ≠ index))
  | named index opens :: rest =>
    let (tokens, names) := resolve rest
    (.value :: tokens, (index, opens) :: names)

def tokens (marks : List Mark) : List Token :=
  (resolve marks).1

end Mark
end Uncertainty.Yaml

import Uncertainty.Document.Scalar

/-!
Documents: the data that a written format holds, before anything is known of its meaning. The
fields of a record keep the order in which their names were first met, and so do the members of a
set. A list or record that stands inside itself is unrolled as far as anyone looks.
-/
namespace Uncertainty

inductive Document where
  | scalar (s : Scalar)
  | list (items : List Document)
  | pair (first second : Document)
  | set (members : List Scalar)
  | record (fields : List (Scalar × Document))
  /-- What stands around this place, as it is seen from here. -/
  | again (whole : Document)

namespace Document

@[match_pattern] abbrev null : Document := scalar .null
@[match_pattern] abbrev boolean (b : Bool) : Document := scalar (.boolean b)
@[match_pattern] abbrev integer (n : Int) : Document := scalar (.integer n)
@[match_pattern] abbrev real (x : Binary64) : Document := scalar (.real x)
@[match_pattern] abbrev text (s : Text) : Document := scalar (.text s)

instance : Inhabited Document := ⟨null⟩

mutual

def same : Document → Document → Bool
  | scalar a, scalar b => a = b
  | list xs, list ys => sameItems xs ys
  | pair a b, pair c d => same a c && same b d
  | set xs, set ys => xs = ys
  | record xs, record ys => sameFields xs ys
  | again a, again b => same a b
  | _, _ => false

def sameItems : List Document → List Document → Bool
  | [], [] => true
  | x :: xs, y :: ys => same x y && sameItems xs ys
  | _, _ => false

def sameFields : List (Scalar × Document) → List (Scalar × Document) → Bool
  | [], [] => true
  | (a, x) :: xs, (b, y) :: ys => a = b && same x y && sameFields xs ys
  | _, _ => false

end

mutual

theorem same_iff : (a b : Document) → (same a b = true ↔ a = b)
  | list xs, list ys => by simp [same, sameItems_iff xs ys]
  | record xs, record ys => by simp [same, sameFields_iff xs ys]
  | pair a b, pair c d => by simp [same, same_iff a c, same_iff b d]
  | again a, again b => by simp [same, same_iff a b]
  | scalar _, b | set _, b => by cases b <;> simp [same]
  | list _, scalar _ | list _, pair .. | list _, set _ | list _, record _ | list _, again _
  | pair .., scalar _ | pair .., list _ | pair .., set _ | pair .., record _ | pair .., again _
  | record _, scalar _ | record _, list _ | record _, pair .. | record _, set _ | record _, again _
  | again _, scalar _ | again _, list _ | again _, pair .. | again _, set _ | again _, record _ =>
    by simp [same]

theorem sameItems_iff : (xs ys : List Document) → (sameItems xs ys = true ↔ xs = ys)
  | [], [] | [], _ :: _ | _ :: _, [] => by simp [sameItems]
  | x :: xs, y :: ys => by simp [sameItems, same_iff x y, sameItems_iff xs ys]

theorem sameFields_iff : (xs ys : List (Scalar × Document)) → (sameFields xs ys = true ↔ xs = ys)
  | [], [] | [], _ :: _ | _ :: _, [] => by simp [sameFields]
  | (a, x) :: xs, (b, y) :: ys => by
    simp [sameFields, same_iff x y, sameFields_iff xs ys, and_assoc]

end

instance : DecidableEq Document :=
  fun a b => decidable_of_iff _ (same_iff a b)

def kind : Document → String
  | scalar s => s.kind
  | list _ => "list"
  | pair .. => "tuple"
  | set _ => "set"
  | record _ => "dict"
  | again whole => whole.kind

/-- Nothing, no, zero of either sign, and all that is empty. -/
def isVoid : Document → Bool
  | scalar s => s.isVoid
  | list items => items.isEmpty
  | pair .. => false
  | set members => members.isEmpty
  | record fields => fields.isEmpty
  | again _ => false

/-- What is seen from a place: the whole of it where it stands inside itself. -/
def entered : Document → Document
  | again whole => whole
  | document => document

/-- Sets a field; a name that is already there keeps its place. -/
def setField (name : Scalar) (value : Document) :
    List (Scalar × Document) → List (Scalar × Document)
  | [] => [(name, value)]
  | field :: rest =>
    if field.1.sameName name then (field.1, value) :: rest else field :: setField name value rest

/-- The fields of a record in writing order; of several fields with one name the last counts. -/
def collect (fields : List (Scalar × Document)) : List (Scalar × Document) :=
  fields.foldl (fun record field => setField field.1 field.2 record) []

def ofFields (fields : List (Scalar × Document)) : Document :=
  record (collect fields)

mutual

def display : Document → String
  | scalar s => s.display
  | list items => "[" ++ ", ".intercalate (displayAll items) ++ "]"
  | pair first second => "(" ++ display first ++ ", " ++ display second ++ ")"
  | set [] => "set()"
  | set members => "\x7b" ++ ", ".intercalate (members.map Scalar.display) ++ "\x7d"
  | record fields => "\x7b" ++ ", ".intercalate (displayFields fields) ++ "\x7d"
  | again (list _) => "[...]"
  | again _ => "\x7b...\x7d"

def displayAll : List Document → List String
  | [] => []
  | item :: rest => display item :: displayAll rest

def displayFields : List (Scalar × Document) → List String
  | [] => []
  | (name, value) :: rest => (name.display ++ ": " ++ display value) :: displayFields rest

end

def displayBare : Document → String
  | scalar s => s.displayBare
  | document => document.display

end Document
end Uncertainty

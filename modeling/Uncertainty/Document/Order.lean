import Uncertainty.Document

/-!
The order of fields by their names. Two names have an order only if both are numbers or both are of
one other kind, so that not all records can be put in order; a record that can is sorted by
insertion into the run of fields at its front that is in order already.
-/
namespace Uncertainty

inductive Unordered where
  | kinds (left right : String)
  | dayAndInstant
  | zoneOnOneSide
deriving DecidableEq

def Unordered.message : Unordered → String
  | kinds left right => s!"'<' not supported between instances of '{left}' and '{right}'"
  | dayAndInstant => "can't compare datetime.datetime to datetime.date"
  | zoneOnOneSide => "can't compare offset-naive and offset-aware datetimes"

def Moment.before? : Moment → Moment → Except Unordered Bool
  | .instant c s, .instant d t =>
    if s.zone.isSome = t.zone.isSome then .ok ((instant c s).text < (instant d t).text)
    else .error .zoneOnOneSide
  | .day c, .day d => .ok ((day c).text < (day d).text)
  | .day _, .instant .. | .instant .., .day _ => .error .dayAndInstant

namespace Scalar

def less (a b : Scalar) : Bool :=
  match a.place?, b.place? with
  | some x, some y => x.1 < y.1 || (x.1 = y.1 && x.2 < y.2)
  | _, _ => false

def before? : Scalar → Scalar → Except Unordered Bool
  | text s, text t => .ok (s.before t)
  | bytes xs, bytes ys => .ok (xs.map (·.toNat) < ys.map (·.toNat))
  | moment x, moment y => x.before? y
  | a, b => if a.isNumber && b.isNumber then .ok (less a b) else .error (.kinds a.kind b.kind)

variable {α : Type}

/-- The longest run behind a name in which each name comes before the last one, or none does. -/
def runBehind (falling : Bool) (last : Scalar) :
    List (Scalar × α) → Except Unordered (List (Scalar × α) × List (Scalar × α))
  | [] => .ok ([], [])
  | field :: rest => do
    if (← field.1.before? last) = falling then
      let (run, rest) ← runBehind falling field.1 rest
      return (field :: run, rest)
    else return ([], field :: rest)

/-- Where a name belongs between two places of a sorted list, behind all that it is not before. -/
def placeIn (fields : List (Scalar × α)) (name : Scalar) :
    Nat → Nat → Nat → Except Unordered Nat
  | 0, low, _ => .ok low
  | fuel + 1, low, high =>
    let middle := low + (high - low) / 2
    match fields[middle]? with
    | none => .ok low
    | some field => do
      if high ≤ low then return low
      else if ← name.before? field.1 then placeIn fields name fuel low middle
      else placeIn fields name fuel (middle + 1) high

def insertByName (fields : List (Scalar × α)) (field : Scalar × α) :
    Except Unordered (List (Scalar × α)) := do
  let place ← placeIn fields field.1 fields.length 0 fields.length
  return fields.take place ++ field :: fields.drop place

def sortByName : List (Scalar × α) → Except Unordered (List (Scalar × α))
  | first :: second :: rest => do
    let falling ← second.1.before? first.1
    let (run, rest) ← runBehind falling second.1 rest
    let run := first :: second :: run
    rest.foldlM insertByName (if falling then run.reverse else run)
  | fields => .ok fields

end Scalar
end Uncertainty

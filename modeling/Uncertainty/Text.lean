/-!
Texts as data holds them. An escape may write one half of a surrogate pair without the other; such a
half is no character and fits in no string, so that a text is a sequence of code points.
-/
namespace Uncertainty

inductive CodePoint where
  | character (c : Char)
  | half (offset : Fin 0x800)
deriving DecidableEq

namespace CodePoint

def number : CodePoint → Nat
  | character c => c.toNat
  | half offset => 0xD800 + offset

def ofNumber? (n : Nat) : Option CodePoint :=
  if halves : 0xD800 ≤ n ∧ n < 0xE000 then some (half ⟨n - 0xD800, by omega⟩)
  else if n < 0x110000 then some (character (Char.ofNat n))
  else none

def character? : CodePoint → Option Char
  | character c => some c
  | half _ => none

end CodePoint

structure Text where
  points : List CodePoint
deriving DecidableEq

namespace Text

def ofString (s : String) : Text :=
  ⟨s.toList.map .character⟩

instance : Coe String Text := ⟨ofString⟩

def isEmpty (text : Text) : Bool :=
  text.points.isEmpty

def toString? (text : Text) : Option String :=
  (text.points.mapM CodePoint.character?).map String.ofList

/-- A text as a string, with the replacement character in the place of each half. -/
def shown (text : Text) : String :=
  String.ofList (text.points.map fun point => point.character?.getD '\ufffd')

def before (a b : Text) : Bool :=
  a.points.map (·.number) < b.points.map (·.number)

theorem mapM_character (characters : List Char) :
    (characters.map CodePoint.character).mapM CodePoint.character? = some characters := by
  induction characters with
  | nil => rfl
  | cons c rest ih => rw [List.map_cons, List.mapM_cons, ih]; rfl

@[simp] theorem toString?_ofString (s : String) : (ofString s).toString? = some s := by
  simp only [ofString, toString?, mapM_character, Option.map_some, String.ofList_toList]

@[simp] theorem ofString_inj {s t : String} : ofString s = ofString t ↔ s = t := by
  refine ⟨fun same => ?_, congrArg ofString⟩
  simpa using congrArg toString? same

end Text
end Uncertainty

import Uncertainty.Document.Order

/-!
Records whose names ascend. Sorting leaves them as they are, and so does collecting their fields.
-/
namespace Uncertainty

namespace Text

variable {a b : Text}

theorem before_asymm (before : a.before b) : b.before a = false := by
  simp only [Text.before, decide_eq_true_eq] at before
  simp only [Text.before, decide_eq_false_iff_not]
  exact List.lt_asymm before

theorem ne_of_before (before : a.before b) : a ≠ b := by
  rintro rfl
  have other := before_asymm before
  rw [before] at other
  cases other

end Text

namespace Scalar

variable {α : Type} {fields : List (Scalar × α)} {last : Scalar}

/-- Names are compared, and none comes before one in front of it. -/
def Rising (names : List Scalar) : Prop :=
  names.Pairwise fun a b => b.before? a = .ok false

theorem runBehind_eq (rising : Rising (last :: fields.map Prod.fst)) :
    runBehind false last fields = .ok (fields, []) := by
  induction fields generalizing last with
  | nil => rfl
  | cons field fields ih =>
    obtain ⟨next, behind⟩ := List.pairwise_cons.mp rising
    rw [runBehind, next field.1 List.mem_cons_self]
    simp only [bind, Except.bind, ↓reduceIte, ih behind]
    rfl

/-- The run at the front takes in all fields. -/
theorem sortByName_eq (rising : Rising (fields.map Prod.fst)) : sortByName fields = .ok fields := by
  match fields with
  | [] | [_] => rfl
  | first :: second :: rest =>
    obtain ⟨next, behind⟩ := List.pairwise_cons.mp rising
    rw [sortByName, next second.1 List.mem_cons_self]
    simp only [bind, Except.bind, runBehind_eq behind]
    rfl

theorem sameName_text {a b : Text} (different : a ≠ b) : (text a).sameName (text b) = false := by
  simp [sameName, place?, different]

end Scalar

namespace Document

variable {name : Scalar} {value : Document} {fields front : List (Scalar × Document)}

theorem setField_eq (new : ∀ field ∈ fields, field.1.sameName name = false) :
    setField name value fields = fields ++ [(name, value)] := by
  induction fields with
  | nil => rfl
  | cons field fields ih =>
    have other := new field List.mem_cons_self
    have behind := ih fun field member => new field (List.mem_cons_of_mem _ member)
    rw [setField, other, behind]
    rfl

/-- Fields of different names, put behind some others one by one. -/
theorem foldl_setField
    (different : ((front ++ fields).map Prod.fst).Pairwise fun a b => a.sameName b = false) :
    fields.foldl (fun record field => setField field.1 field.2 record) front = front ++ fields := by
  induction fields generalizing front with
  | nil => simp
  | cons field fields ih =>
    have new : ∀ other ∈ front, other.1.sameName field.1 = false := by
      rw [List.map_append, List.pairwise_append] at different
      intro other member
      exact different.2.2 other.1 (List.mem_map_of_mem member) field.1 List.mem_cons_self
    have regrouped : front ++ field :: fields = (front ++ [field]) ++ fields := by simp
    rw [regrouped] at different ⊢
    rw [List.foldl_cons, setField_eq new]
    exact ih different

theorem collect_eq
    (different : (fields.map Prod.fst).Pairwise fun a b => a.sameName b = false) :
    collect fields = fields :=
  foldl_setField different

/-- Fields with strings as names. -/
def named (fields : List (String × Document)) : List (Scalar × Document) :=
  fields.map fun (name, value) => (Scalar.text name, value)

/-- Strings in ascending order. -/
def Ascending (names : List String) : Prop :=
  names.Pairwise fun a b => (Text.ofString a).before b

instance (names : List String) : Decidable (Ascending names) :=
  inferInstanceAs (Decidable (names.Pairwise fun a b => (Text.ofString a).before b))

section Ascending

variable {fields : List (String × Document)}

theorem names_named (fields : List (String × Document)) :
    (named fields).map Prod.fst =
      (fields.map Prod.fst).map fun name : String => Scalar.text name := by
  simp [named, Function.comp_def]

theorem Ascending.rising (ascending : Ascending (fields.map Prod.fst)) :
    Scalar.Rising ((named fields).map Prod.fst) := by
  rw [names_named, Scalar.Rising, List.pairwise_map]
  exact ascending.imp fun before => congrArg Except.ok (Text.before_asymm before)

theorem Ascending.collect_named (ascending : Ascending (fields.map Prod.fst)) :
    collect (named fields) = named fields := by
  apply collect_eq
  rw [names_named, List.pairwise_map]
  exact ascending.imp fun before => Scalar.sameName_text (Text.ne_of_before before)

end Ascending

end Document
end Uncertainty

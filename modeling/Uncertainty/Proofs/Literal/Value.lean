import Uncertainty.Evaluation
import Uncertainty.Proofs.Expr.RoundTrip

/-!
The value of a decimal literal. Its text is a numeral as it stands: it has no blanks, signs or
separators that the reader of numerals would have to take away, and it is mistaken for no word.
-/
namespace Uncertainty

open Binary64 (ofDecimal ofText?)

namespace Binary64.Numeral

variable {c : Char} {characters integral fractional rest : List Char} {negative afterDigit : Bool}

/-- Nothing but digits and points. -/
def Plain (characters : List Char) : Prop :=
  ∀ c ∈ characters, c.isDigit ∨ c = '.'

theorem toNat_of_isDigit (digit : c.isDigit) : 48 ≤ c.toNat ∧ c.toNat ≤ 57 := by
  simpa [Char.isDigit, UInt32.le_iff_toNat_le] using digit

theorem toLower_of_isDigit (digit : c.isDigit) : c.toLower = c := by
  have range := toNat_of_isDigit digit
  unfold Char.toLower
  rw [dif_neg]
  simp only [UInt32.le_iff_toNat_le, Char.toNat_val, not_and]
  intro upper
  change 65 ≤ c.toNat at upper
  omega

namespace Plain

theorem respell_eq (plain : Plain characters) : respell characters = some characters := by
  have narrow : characters.all (·.toNat < 128) := by
    rw [List.all_eq_true]
    intro c member
    rcases plain c member with digit | rfl
    · have range := toNat_of_isDigit digit
      exact decide_eq_true (by omega)
    · decide
  rw [respell, if_pos narrow]

theorem not_blank (plain : Plain characters) (member : c ∈ characters) :
    Text.isNarrowBlank c = false := by
  rcases plain c member with digit | rfl
  · have range := toNat_of_isDigit digit
    have noSpace : c ≠ ' ' := by rintro rfl; cases digit
    have noControl : ¬ (9 ≤ c.toNat ∧ c.toNat ≤ 13) := by omega
    simpa [Text.isNarrowBlank, noSpace] using noControl
  · decide

theorem dropWhile_eq (plain : Plain characters) :
    characters.dropWhile Text.isNarrowBlank = characters := by
  cases characters with
  | nil => rfl
  | cons c rest =>
    rw [List.dropWhile_cons_of_neg]
    rw [plain.not_blank List.mem_cons_self]
    exact Bool.false_ne_true

theorem trim_eq (plain : Plain characters) : trim characters = characters := by
  have reversed : Plain characters.reverse := fun c member => plain c (List.mem_reverse.mp member)
  rw [trim, plain.dropWhile_eq, reversed.dropWhile_eq, List.reverse_reverse]

theorem dropSeparators_eq (plain : Plain characters) :
    dropSeparators afterDigit characters = some characters := by
  induction characters generalizing afterDigit with
  | nil => rfl
  | cons c rest ih =>
    have noSeparator : c ≠ '_' := by
      rintro rfl
      rcases plain '_' List.mem_cons_self with digit | point <;> contradiction
    have dropped := @ih c.isDigit fun d member => plain d (List.mem_cons_of_mem _ member)
    rw [dropSeparators, dropped, Option.map_some]
    · exact fun same _ => noSeparator same
    · exact fun _ _ same _ => noSeparator same

end Plain

theorem takeSign_digit (digit : c.isDigit) : takeSign (c :: rest) = (false, c :: rest) := by
  unfold takeSign
  split
  case h_1 same => cases same; cases digit
  case h_2 same => cases same; cases digit
  case h_3 => rfl

theorem not_word (digit : c.isDigit) (word : String)
    (lettered : word.toList.head?.any Char.isDigit = false) :
    (c :: rest).map Char.toLower ≠ word.toList := by
  intro same
  rw [← same, List.map_cons, List.head?_cons, toLower_of_isDigit digit, Option.any_some,
    digit] at lettered
  cases lettered

theorem split_digits (inside : ∀ c ∈ integral, c.isDigit)
    (ends : ∀ c ∈ rest.head?, c.isDigit = false) :
    (integral ++ rest).takeWhile Char.isDigit = integral ∧
      (integral ++ rest).dropWhile Char.isDigit = rest := by
  rw [List.takeWhile_append_of_pos inside, List.dropWhile_append_of_pos inside]
  cases rest with
  | nil => simp
  | cons c rest => simp [ends c rfl]

/-- The digits behind a point, where there is one, and what stands behind them. -/
def fraction : List Char → List Char × List Char
  | '.' :: rest => (rest.takeWhile Char.isDigit, rest.dropWhile Char.isDigit)
  | rest => ([], rest)

/-- What begins with a digit is read as digits, with a point among them or without one. -/
theorem magnitude?_digits (nonempty : integral ≠ []) (inside : ∀ c ∈ integral, c.isDigit)
    (ends : ∀ c ∈ rest.head?, c.isDigit = false) :
    magnitude? negative (integral ++ rest) =
      (exponent? (fraction rest).2).map fun exponent =>
        ofDecimal negative (value (integral ++ (fraction rest).1))
          (exponent - (fraction rest).1.length) := by
  obtain ⟨c, digits, rfl⟩ := List.exists_cons_of_ne_nil nonempty
  have noWord := fun word => @not_word c (digits ++ rest) (inside c List.mem_cons_self) word
  obtain ⟨taken, left⟩ := split_digits inside ends
  rw [List.cons_append] at taken left ⊢
  simp only [magnitude?, noWord "nan" (by decide), noWord "inf" (by decide),
    noWord "infinity" (by decide), taken, left, List.isEmpty_cons, Bool.false_and, Bool.or_self,
    decide_false, Bool.false_eq_true, ↓reduceIte]
  rfl

theorem magnitude?_whole (nonempty : integral ≠ []) (inside : ∀ c ∈ integral, c.isDigit) :
    magnitude? negative integral = some (ofDecimal negative (value integral) 0) := by
  have read := @magnitude?_digits _ [] negative nonempty inside nofun
  simpa [fraction, exponent?] using read

theorem magnitude?_pointed (nonempty : integral ≠ []) (inside : ∀ c ∈ integral, c.isDigit)
    (behind : ∀ c ∈ fractional, c.isDigit) :
    magnitude? negative (integral ++ '.' :: fractional) =
      some (ofDecimal negative (value (integral ++ fractional)) (-fractional.length)) := by
  obtain ⟨taken, left⟩ := @split_digits _ [] behind nofun
  rw [List.append_nil] at taken left
  rw [magnitude?_digits nonempty inside (by rintro c ⟨⟩; rfl)]
  simp [fraction, taken, left, exponent?]

end Binary64.Numeral

open Binary64 (Numeral.value) in
open Binary64.Numeral in
/-- A decimal literal has a value: all of its digits, scaled by those behind the point, rounded
once. -/
theorem Literal.IsDecimal.value_eq {literal : Literal} (isDecimal : literal.IsDecimal) :
    literal.value = some (ofDecimal false
      (Numeral.value (literal.integral.toList ++ literal.fractional.toList))
      (-literal.fractional.toList.length)) := by
  have plain : Plain literal.toText.toList := isDecimal.isStretch.1
  obtain ⟨nonempty, integral, fractional⟩ := isDecimal
  have unsigned : takeSign literal.toText.toList = (false, literal.toText.toList) := by
    obtain ⟨c, rest, same⟩ := List.exists_cons_of_ne_nil nonempty
    have digit := integral c (by rw [same]; exact List.mem_cons_self)
    rw [Literal.toText_eq, same]
    split <;> exact takeSign_digit digit
  have read : ofText? literal.toText = magnitude? false literal.toText.toList := by
    simp only [ofText?, plain.respell_eq, plain.trim_eq, plain.dropSeparators_eq, unsigned,
      Option.bind_eq_bind, Option.bind_some]
  rw [Literal.value, read, Literal.toText_eq]
  split
  case isTrue whole =>
    rw [magnitude?_whole nonempty integral, whole]
    simp
  case isFalse => rw [magnitude?_pointed nonempty integral fractional]

end Uncertainty

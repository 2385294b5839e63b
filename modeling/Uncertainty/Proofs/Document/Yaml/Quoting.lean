import Mathlib.Data.List.TakeWhile
import Uncertainty.Token
import Uncertainty.Proofs.Document.Yaml.RoundTrip
import Uncertainty.Proofs.Literal.Value

/-!
Which texts of a tree are written in quotes. Digits are, if they would be read as an integer without
quotes, and so are the two signs that start something else.
-/
namespace Uncertainty.Yaml

variable {c : Char} {characters rest : List Char}

/-- Digits that write an integer: a zero alone, a number without a zero in front, or an octal number
behind a zero. -/
def WritesInteger (characters : List Char) : Prop :=
  characters = ['0'] ∨ (∃ c rest, characters = c :: rest ∧ c ≠ '0') ∨
    ∃ c rest, characters = '0' :: c :: rest ∧ ∀ d ∈ c :: rest, d ≤ '7'

namespace Tag

theorem isDigitOrGap_of_digit (digit : c.isDigit) : isDigitOrGap c = true := by
  simp [isDigitOrGap, digit]

theorem isOctalDigit_iff (digit : c.isDigit) : isOctalDigit c = true ↔ c ≤ '7' := by
  have noGap : c ≠ '_' := by
    rintro rfl
    cases digit
  have least : '0' ≤ c := by
    simp only [Char.isDigit, Bool.and_eq_true, decide_eq_true_eq] at digit
    exact digit.1
  simp [isOctalDigit, noGap, least]

theorem takeSign_digits (digits : ∀ c ∈ characters, c.isDigit) :
    Binary64.Numeral.takeSign characters = (false, characters) := by
  cases characters with
  | nil => rfl
  | cons c rest => exact Binary64.Numeral.takeSign_digit (digits c List.mem_cons_self)

theorem lookup_words (nonempty : characters ≠ []) (digits : ∀ c ∈ characters, c.isDigit) :
    words.lookup (String.ofList characters) = none := by
  have lettered : ∀ word ∈ words, word.1.toList = [] ∨ word.1.toList.all Char.isDigit = false := by
    decide +kernel
  rw [List.lookup_eq_none_iff]
  intro word member
  rw [bne_iff_ne]
  intro same
  have spelled : word.1.toList = characters := by rw [← same, String.toList_ofList]
  rcases lettered word member with empty | letter
  · exact nonempty (spelled.symm.trans empty)
  · rw [spelled, List.all_eq_true.mpr digits] at letter
    cases letter

/-- A fraction has a point, in base sixty too. -/
theorem isReal_digits (digits : ∀ c ∈ characters, c.isDigit) : isReal characters = false := by
  have noFraction : isFraction characters = false := by
    have all : characters.dropWhile isDigitOrGap = [] :=
      List.dropWhile_eq_nil_iff.mpr fun c member => isDigitOrGap_of_digit (digits c member)
    simp [isFraction, all]
  have noSexagesimal : isSexagesimalFraction characters = false := by
    have all : characters.dropWhile (· ≠ '.') = [] := by
      rw [List.dropWhile_eq_nil_iff]
      intro c member
      rw [decide_eq_true_iff]
      rintro rfl
      cases digits '.' member
    simp only [isSexagesimalFraction, all]
  simp [isReal, takeSign_digits digits, noFraction, noSexagesimal]

theorem isMoment_digits (digits : ∀ c ∈ characters, c.isDigit) : isMoment characters = false := by
  have all : characters.takeWhile Char.isDigit = characters :=
    List.takeWhile_eq_self_iff.mpr digits
  have noDay (least : Nat) : day? least characters = none := by
    simp only [day?, numberOf?, all]
    split <;> simp [behindSign?]
  simp [isMoment, moment?, noDay]

theorem isNatural_iff (digits : ∀ c ∈ characters, c.isDigit) :
    isNatural characters = true ↔ WritesInteger characters := by
  unfold isNatural
  split
  case h_1 => simp [WritesInteger]
  case h_2 => cases digits 'b' (by simp)
  case h_3 => cases digits 'x' (by simp)
  case h_4 octal _ _ _ =>
    have octals := fun d member => isOctalDigit_iff (digits d (List.mem_cons_of_mem _ member))
    cases octal with
    | nil => contradiction
    | cons c rest =>
      simp only [nonempty, List.isEmpty_cons, Bool.not_false, Bool.true_and, List.all_eq_true]
      constructor
      · intro all
        exact .inr (.inr ⟨c, rest, rfl, fun d member => (octals d member).mp (all d member)⟩)
      · rintro (same | ⟨_, _, same, noZero⟩ | ⟨_, _, same, all⟩)
        · cases same
        · cases same
          exact absurd rfl noZero
        · cases same
          exact fun d member => (octals d member).mpr (all d member)
  case h_5 noZero =>
    cases characters with
    | nil => simp [WritesInteger, startsWithDigit, isSexagesimal, splitAtColons]
    | cons c rest =>
      have first : c ≠ '0' := fun zero => noZero rest (by rw [zero])
      have all : (c :: rest).all isDigitOrGap = true :=
        List.all_eq_true.mpr fun d member => isDigitOrGap_of_digit (digits d member)
      have starts : startsWithDigit (c :: rest) = true := digits c List.mem_cons_self
      simp only [all, starts, Bool.and_self, Bool.true_or, true_iff]
      exact .inr (.inl ⟨c, rest, rfl, first⟩)

theorem ofPlain_digits (nonempty : characters ≠ []) (digits : ∀ c ∈ characters, c.isDigit) :
    ofPlain characters = if isNatural characters then integer else text := by
  rw [ofPlain, lookup_words nonempty digits]
  simp [isReal_digits digits, isMoment_digits digits, takeSign_digits digits]

theorem ofPlain_eq_integer_iff (digits : ∀ c ∈ characters, c.isDigit) :
    ofPlain characters = integer ↔ WritesInteger characters := by
  rw [← isNatural_iff digits]
  by_cases empty : characters = []
  · rw [empty]
    decide +kernel
  · rw [ofPlain_digits empty digits]
    split <;> simp_all

end Tag

theorem ordinary_of_digit (digit : c.isDigit) :
    isIndicator c = false ∧ isDelimiter c = false ∧ isPermitted c = true := by
  obtain ⟨least, most⟩ := Binary64.Numeral.toNat_of_isDigit digit
  have ordinary : ∀ n ≤ 57, 48 ≤ n → isIndicator (.ofNat n) = false ∧
      isDelimiter (.ofNat n) = false ∧ isPermitted (.ofNat n) = true := by
    decide +kernel
  have here := ordinary c.toNat most least
  rwa [Char.ofNat_toNat] at here

theorem standsAlone_digits_iff (digits : ∀ c ∈ characters, c.isDigit) :
    StandsAlone characters ↔ ¬ (characters = [] ∨ Tag.ofPlain characters = .integer) := by
  rw [not_or]
  constructor
  · intro alone
    refine ⟨alone.nonempty, ?_⟩
    rw [alone.isText]
    exact nofun
  · rintro ⟨nonempty, noInteger⟩
    have isText : Tag.ofPlain characters = .text := by
      rw [Tag.ofPlain_digits nonempty digits] at noInteger ⊢
      split at noInteger
      case isTrue => exact absurd rfl noInteger
      case isFalse whole => exact if_neg whole
    refine ⟨nonempty, fun c first => ?_, fun c member => ?_, isText⟩
    · exact (ordinary_of_digit (digits c (List.mem_of_head? first))).1
    · exact (ordinary_of_digit (digits c member)).2.1

/-- Digits are quoted if there are none or they would be read as an integer. -/
theorem writeText_digits {s : String} (digits : ∀ c ∈ s.toList, c.isDigit) :
    writeText s = if s = "" ∨ Tag.ofPlain s.toList = .integer then quoteText s.toList
      else s.toList := by
  have iff := standsAlone_digits_iff digits
  rw [String.toList_eq_nil_iff] at iff
  split
  case isTrue quotes => exact writeText_quoted fun alone => iff.mp alone quotes
  case isFalse plain => exact writeText_alone (iff.mpr plain)

/-- A dash alone opens an item and a star an alias, so they are quoted. -/
theorem writeText_symbol (symbol : Symbol) :
    writeText symbol.text = if symbol = .minus ∨ symbol = .star then quoteText symbol.text.toList
      else symbol.text.toList := by
  cases symbol <;> decide +kernel

end Uncertainty.Yaml

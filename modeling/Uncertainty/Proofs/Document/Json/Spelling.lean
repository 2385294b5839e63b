import Mathlib.Data.List.Chain
import Uncertainty.Document.Json.Reader

/-!
Texts in JSON strings. Whatever stands behind it, a written code point is read back as itself,
unless the next one makes a character with it.
-/
namespace Uncertainty

namespace Text

variable {n : Nat}

theorem hexValue?_digitChar : ∀ digit < 16, hexValue? digit.digitChar = some digit := by
  decide

theorem hexNumber?_concat (digits : List Char) (c : Char) : hexNumber? (digits ++ [c]) =
    (hexNumber? digits).bind fun n => (hexValue? c).map (16 * n + ·) := by
  simp [hexNumber?, List.foldlM_append]

theorem hexNumber?_toDigits (n : Nat) : hexNumber? (Nat.toDigits 16 n) = some n := by
  induction n using Nat.strongRecOn with
  | ind n ih =>
    rw [Nat.toDigits_eq_if (by decide)]
    split
    case isTrue small =>
      simp [hexNumber?, hexValue?_digitChar n small]
    case isFalse large =>
      have last := hexValue?_digitChar (n % 16) (Nat.mod_lt n (by decide))
      have whole : 16 * (n / 16) + n % 16 = n := Nat.div_add_mod n 16
      rw [hexNumber?_concat, ih (n / 16) (by omega)]
      simp [last, whole]

theorem hexNumber?_leading (count : Nat) (digits : List Char) :
    hexNumber? (List.replicate count '0' ++ digits) = hexNumber? digits := by
  induction count with
  | zero => rfl
  | succ count ih => exact ih

theorem hexNumber?_hex (width n : Nat) : hexNumber? (hex width n) = some n := by
  rw [hex, List.leftpad, hexNumber?_leading, hexNumber?_toDigits]

theorem exists_hex_four (bound : n < 0x10000) : ∃ a b c d, hex 4 n = [a, b, c, d] := by
  have short : (Nat.toDigits 16 n).length ≤ 4 :=
    (Nat.length_toDigits_le_iff (by decide) (by decide)).mpr bound
  have four : (hex 4 n).length = 4 := by
    rw [hex, List.length_leftpad]
    omega
  match hex 4 n, four with
  | [a, b, c, d], _ => exact ⟨a, b, c, d, rfl⟩

end Text

namespace CodePoint

/-- Characters are not where the halves are. -/
theorem toNat_valid (c : Char) : c.toNat < 0xD800 ∨ (0xE000 ≤ c.toNat ∧ c.toNat < 0x110000) := by
  have valid : c.toNat.isValidChar := c.valid
  simp only [Nat.isValidChar] at valid
  omega

theorem ofNumber?_number (point : CodePoint) : ofNumber? point.number = some point := by
  cases point with
  | character c =>
    have valid := toNat_valid c
    rw [number, ofNumber?, dif_neg (by omega), if_pos (by omega), Char.ofNat_toNat]
  | half offset =>
    have bound := offset.isLt
    rw [number, ofNumber?, dif_pos (by omega)]
    simp

end CodePoint

namespace Json

variable {c : Char} {point : CodePoint} {points : List CodePoint} {fuel unit : Nat}
variable {rest : List Char}

/-- The ways to write a code point, and what the reader has to know of each. -/
inductive Spelling : CodePoint → List Char → Prop where
  | escape {c letter : Char} (short : letter ≠ 'u') (known : unescape? letter = some c) :
      Spelling (.character c) ['\\', letter]
  | numbered {point : CodePoint} {a b c d : Char}
      (digits : Text.hexNumber? [a, b, c, d] = some point.number) :
      Spelling point ['\\', 'u', a, b, c, d]
  | itself {c : Char} (quote : c ≠ '"') (backslash : c ≠ '\\') (control : ¬ c.toNat < 0x20) :
      Spelling (.character c) [c]

theorem Spelling.length_pos {characters : List Char} (spelling : Spelling point characters) :
    0 < characters.length := by
  cases spelling <;> exact Nat.succ_pos _

theorem spelling_number (bound : point.number < 0x10000) :
    Spelling point ('\\' :: 'u' :: Text.hex 4 point.number) := by
  obtain ⟨a, b, c, d, four⟩ := Text.exists_hex_four bound
  have digits := Text.hexNumber?_hex 4 point.number
  rw [four] at digits ⊢
  exact .numbered digits

theorem unescape?_of_mem_escapes : ∀ escape ∈ escapes,
    escape.2 ≠ 'u' ∧ unescape? escape.2 = some escape.1 := by
  decide

theorem spelling_writePoint (point : CodePoint) : Spelling point (writePoint point) := by
  cases point with
  | half offset =>
    have bound := offset.isLt
    refine spelling_number ?_
    simp only [CodePoint.number]
    omega
  | character c =>
    rw [writePoint, writeCharacter]
    cases found : escapes.lookup c with
    | some letter =>
      have listed : (c, letter) ∈ escapes := by
        obtain ⟨front, back, parts, -⟩ := List.lookup_eq_some_iff.mp found
        rw [parts]
        exact List.mem_append_right front List.mem_cons_self
      have undone := unescape?_of_mem_escapes _ listed
      exact .escape undone.1 undone.2
    | none =>
      dsimp only
      split
      case isTrue control =>
        have bound : (CodePoint.character c).number < 0x10000 := by
          simp only [CodePoint.number]
          omega
        exact spelling_number bound
      case isFalse control =>
        refine .itself ?_ ?_ control
        · rintro rfl
          cases found
        · rintro rfl
          cases found

/-- A unit is no first half of what is written by number behind it. -/
def Apart (unit : Nat) (rest : List Char) : Prop :=
  ∀ e f g h low tail, rest = '\\' :: 'u' :: e :: f :: g :: h :: tail →
    Text.hexNumber? [e, f, g, h] = some low → joined? unit low = none

theorem apart_quote : Apart unit ('"' :: rest) := by
  intro e f g h low tail same
  cases same

theorem apart_writePoint (alone : joined? unit point.number = none) :
    Apart unit (writePoint point ++ rest) := by
  intro e f g h low tail same digits
  have spelling := spelling_writePoint point
  generalize writePoint point = characters at same spelling
  cases spelling with
  | escape short known =>
    cases same
    exact absurd rfl short
  | numbered digits' =>
    cases same
    rw [digits'] at digits
    cases digits
    exact alone
  | itself quote backslash control =>
    cases same
    exact absurd rfl backslash

theorem codePoint?_numbered {a b c d : Char}
    (digits : Text.hexNumber? [a, b, c, d] = some point.number) (apart : Apart point.number rest) :
    codePoint? (a :: b :: c :: d :: rest) = some (point, rest) := by
  rw [codePoint?, digits]
  dsimp only [bind, Option.bind]
  split
  case h_1 e f g h tail =>
    cases next : Text.hexNumber? [e, f, g, h] with
    | none => simp [CodePoint.ofNumber?_number]
    | some low =>
      have alone : joined? point.number low = none := apart e f g h low tail rfl next
      simp [alone, CodePoint.ofNumber?_number]
  case h_2 => simp [CodePoint.ofNumber?_number]

theorem readText_writePoint (apart : Apart point.number rest) :
    readText (fuel + 1) (writePoint point ++ rest) =
      (readText fuel rest).map fun (text, rest) => (point :: text, rest) := by
  have spelling := spelling_writePoint point
  generalize writePoint point = characters at spelling
  cases spelling with
  | escape short known =>
    rw [List.cons_append, List.cons_append, List.nil_append, readText, known]
    · cases readText fuel rest <;> rfl
    · exact short
  | numbered digits =>
    rw [List.cons_append, List.cons_append, readText]
    have number := codePoint?_numbered digits apart
    simp only [List.cons_append, List.nil_append, number, bind, Option.bind]
    cases readText fuel rest <;> rfl
  | itself quote backslash control =>
    rw [List.cons_append, List.nil_append, readText]
    · rw [if_neg (by simp [backslash, control])]
      cases readText fuel rest <;> rfl
    · exact quote
    · exact fun tail same => absurd same backslash
    · exact fun letter tail same => absurd same backslash

/-- No two code points in a row are the halves of one character. -/
def Unpaired (text : Text) : Prop :=
  text.points.IsChain fun a b => joined? a.number b.number = none

instance (text : Text) : Decidable (Unpaired text) :=
  inferInstanceAs (Decidable (text.points.IsChain fun a b => joined? a.number b.number = none))

theorem joined?_character (c : Char) (low : Nat) :
    joined? (CodePoint.character c).number low = none := by
  have valid := CodePoint.toNat_valid c
  rw [joined?, CodePoint.number, if_neg (by omega)]

theorem unpaired_ofString (s : String) : Unpaired s := by
  rw [Unpaired, Text.ofString, List.isChain_map]
  exact (List.pairwise_of_forall fun a b => joined?_character a b.toNat).isChain

theorem readText_points (unpaired : points.IsChain fun a b => joined? a.number b.number = none)
    (enough : points.length < fuel) :
    readText fuel (points.flatMap writePoint ++ '"' :: rest) = some (points, rest) := by
  induction points generalizing fuel with
  | nil =>
    cases fuel with
    | zero => cases enough
    | succ fuel => rfl
  | cons point points ih =>
    cases fuel with
    | zero => cases enough
    | succ fuel =>
      have apart : Apart point.number (points.flatMap writePoint ++ '"' :: rest) := by
        cases points with
        | nil => exact apart_quote
        | cons next points =>
          rw [List.flatMap_cons, List.append_assoc]
          exact apart_writePoint (List.isChain_cons_cons.mp unpaired).1
      have behind := ih unpaired.tail (Nat.lt_of_succ_lt_succ enough)
      rw [List.flatMap_cons, List.append_assoc, readText_writePoint apart, behind]
      rfl

/-- Two halves in a row are read as their character. -/
example : readText 20 (writeText ⟨[.half 0x3d, .half 0x600]⟩).tail = some ([.character '😀'], []) := by
  decide

theorem length_le_flatMap_writePoint (points : List CodePoint) :
    points.length ≤ (points.flatMap writePoint).length := by
  induction points with
  | nil => exact Nat.le_refl 0
  | cons point points ih =>
    have some : 0 < (writePoint point).length := (spelling_writePoint point).length_pos
    rw [List.flatMap_cons, List.length_append, List.length_cons]
    omega

theorem itemsOf_writeText {text : Text} (unpaired : Unpaired text)
    (enough : (writeText text ++ rest).length ≤ fuel + 1) :
    itemsOf (fuel + 1) (writeText text ++ rest) = .scalar (.text text) :: itemsOf fuel rest := by
  have short := length_le_flatMap_writePoint text.points
  have inside : text.points.length < fuel + 1 := by
    simp only [writeText, List.length_append, List.length_cons, List.length_nil] at enough
    omega
  have read : readText (fuel + 1) (text.points.flatMap writePoint ++ '"' :: rest) =
      some (text.points, rest) :=
    readText_points unpaired inside
  simp [writeText, itemsOf, isBlank, isMark, read]

end Json
end Uncertainty

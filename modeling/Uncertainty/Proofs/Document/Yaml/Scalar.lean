import Uncertainty.Document.Yaml.Printer
import Uncertainty.Document.Yaml.Quoted

/-!
Texts on one line, written as YAML and read back. One that stands for itself is read up to the colon
or the end of the line behind it, and one in quotes up to the closing quote.
-/
namespace Uncertainty.Yaml

section Plain

variable {c : Char} {characters content ending rest : List Char} {fuel least width : Nat}

/-- A text that stands for itself can be told from everything else that may stand in its place. -/
structure StandsAlone (characters : List Char) : Prop where
  nonempty : characters ≠ []
  noIndicator : ∀ c ∈ characters.head?, isIndicator c = false
  noDelimiter : ∀ c ∈ characters, isDelimiter c = false
  isText : Tag.ofPlain characters = .text

theorem isPlain_iff : isPlain characters = true ↔ StandsAlone characters := by
  cases characters with
  | nil => exact ⟨nofun, fun alone => absurd rfl alone.nonempty⟩
  | cons first rest =>
    rw [isPlain]
    simp only [Bool.and_eq_true, Bool.not_eq_true', List.any_eq_false, decide_eq_true_eq,
      Bool.not_eq_true]
    constructor
    · rintro ⟨⟨noIndicator, noDelimiter⟩, isText⟩
      exact ⟨nofun, by simpa using noIndicator, noDelimiter, isText⟩
    · intro alone
      exact ⟨⟨alone.noIndicator first rfl, alone.noDelimiter⟩, alone.isText⟩

/-- What is no delimiter is no blank and none of the signs that end a plain scalar. -/
theorem ordinary_of_noDelimiter (noDelimiter : isDelimiter c = false) :
    isSpacing c = false ∧ isBreak c = false ∧ c ≠ ':' ∧ c ≠ '#' := by
  have other (d : Char) (delimiter : isDelimiter d = true) : c ≠ d := by
    rintro rfl
    rw [delimiter] at noDelimiter
    cases noDelimiter
  simp only [isSpacing, isBreak, Bool.or_eq_false_iff, decide_eq_false_iff_not]
  exact ⟨⟨other _ rfl, other _ rfl⟩, ⟨⟨other _ rfl, other _ (by decide +kernel)⟩,
    other _ (by decide +kernel)⟩, other _ rfl, other _ rfl⟩

theorem plainRun_append (noDelimiter : ∀ c ∈ characters, isDelimiter c = false)
    (ends : plainRun false ending = ([], ending)) :
    plainRun false (characters ++ ending) = (characters, ending) := by
  induction characters with
  | nil => exact ends
  | cons c rest ih =>
    obtain ⟨noSpacing, noBreak, noColon, -⟩ :=
      ordinary_of_noDelimiter (noDelimiter c List.mem_cons_self)
    have behind := ih fun d member => noDelimiter d (List.mem_cons_of_mem _ member)
    simp [plainRun, noSpacing, noBreak, noColon, behind]

theorem StandsAlone.plainRun_name (alone : StandsAlone characters) (blank : atBlank rest = true) :
    plainRun false (characters ++ ':' :: rest) = (characters, ':' :: rest) :=
  plainRun_append alone.noDelimiter (by simp [plainRun, endsAtColon, blank])

theorem StandsAlone.read_name (alone : StandsAlone characters) (blank : atBlank rest = true) :
    Plain.read false least (fuel + 1) (characters ++ ':' :: rest) =
      ⟨characters, ':' :: rest, false⟩ := by
  have noBreak : isBreak ':' = false := rfl
  simp [Plain.read, alone.plainRun_name blank, alone.nonempty, trimStart, noBreak]

/-- Something that is seen at the start of a line, behind its indentation. -/
def Visible (content : List Char) : Prop :=
  ∀ c ∈ content.head?, c ≠ ' ' ∧ c ≠ '#' ∧ isBreak c = false

theorem visible_nil : Visible [] :=
  nofun

theorem StandsAlone.visible (alone : StandsAlone characters) (rest : List Char) :
    Visible (characters ++ rest) := by
  cases characters with
  | nil => exact absurd rfl alone.nonempty
  | cons c others =>
    rintro _ ⟨⟩
    obtain ⟨noSpacing, noBreak, -, noComment⟩ :=
      ordinary_of_noDelimiter (alone.noDelimiter c List.mem_cons_self)
    simp only [isSpacing, Bool.or_eq_false_iff, decide_eq_false_iff_not] at noSpacing
    exact ⟨noSpacing.1, noComment, noBreak⟩

theorem Visible.gap_eq (visible : Visible content) (column width : Nat) :
    Gap.read (· = ' ') column (List.replicate width ' ' ++ content) =
      ⟨[], column + width, content⟩ := by
  induction width generalizing column with
  | zero =>
    cases content with
    | nil => rfl
    | cons c rest =>
      obtain ⟨noSpace, -, noBreak⟩ := visible c rfl
      simp [Gap.read, noSpace, noBreak]
  | succ width ih =>
    simp [List.replicate_succ, Gap.read, ih]
    omega

theorem StandsAlone.read_value (alone : StandsAlone characters) (visible : Visible content)
    (outside : width < least) :
    Plain.read false least (fuel + 1)
        (characters ++ '\n' :: (List.replicate width ' ' ++ content)) =
      ⟨characters, content, true⟩ := by
  have noSpacing : isSpacing '\n' = false := rfl
  have isBreak : isBreak '\n' = true := rfl
  have run : plainRun false (characters ++ '\n' :: (List.replicate width ' ' ++ content)) =
      (characters, '\n' :: (List.replicate width ' ' ++ content)) :=
    plainRun_append alone.noDelimiter (by simp [plainRun, isBreak])
  simp [Plain.read, run, alone.nonempty, trimStart, isBreak, visible.gap_eq, outside]

end Plain

section Quoted

variable {c : Char} {characters rest : List Char} {fuel : Nat}

def quoteCharacter (c : Char) : List Char :=
  if c = '\'' then ['\'', '\''] else [c]

theorem quoteText_eq (characters : List Char) :
    quoteText characters = '\'' :: (characters.flatMap quoteCharacter ++ ['\'']) :=
  rfl

theorem length_le_flatMap_quote (characters : List Char) :
    characters.length ≤ (characters.flatMap quoteCharacter).length := by
  induction characters with
  | nil => exact Nat.le_refl 0
  | cons c characters ih =>
    have some : 1 ≤ (quoteCharacter c).length := by
      unfold quoteCharacter
      split <;> simp
    rw [List.flatMap_cons, List.length_append, List.length_cons]
    omega

theorem dropWhile_spacing (oneLine : ∀ c ∈ characters, isBreak c = false) (rest : List Char) :
    ∃ c below, (characters.flatMap quoteCharacter ++ '\'' :: rest).dropWhile isSpacing =
      c :: below ∧ isBreak c = false := by
  induction characters with
  | nil => exact ⟨'\'', rest, rfl, rfl⟩
  | cons c characters ih =>
    rw [List.flatMap_cons, List.append_assoc, quoteCharacter]
    by_cases isQuote : c = '\''
    · rw [if_pos isQuote]
      exact ⟨'\'', _, rfl, rfl⟩
    · rw [if_neg isQuote, List.cons_append, List.nil_append]
      by_cases spacing : isSpacing c = true
      · rw [List.dropWhile_cons_of_pos spacing]
        exact ih fun d member => oneLine d (List.mem_cons_of_mem _ member)
      · rw [List.dropWhile_cons_of_neg spacing]
        exact ⟨c, _, rfl, oneLine c List.mem_cons_self⟩

/-- A quoted text on one line is read back up to its closing quote. -/
theorem quoted_flatMap (oneLine : ∀ c ∈ characters, isBreak c = false)
    (closes : rest.head? ≠ some '\'') (enough : characters.length < fuel) :
    quoted false fuel (characters.flatMap quoteCharacter ++ '\'' :: rest) =
      .ok (characters.map .character, rest) := by
  induction characters generalizing fuel with
  | nil =>
    cases fuel with
    | zero => cases enough
    | succ fuel => simp [quoted, closes]; rfl
  | cons c characters ih =>
    cases fuel with
    | zero => cases enough
    | succ fuel =>
      have oneLine' : ∀ d ∈ characters, isBreak d = false :=
        fun d member => oneLine d (List.mem_cons_of_mem _ member)
      have behind := ih oneLine' (Nat.lt_of_succ_lt_succ enough)
      rw [List.flatMap_cons, List.append_assoc, quoteCharacter]
      by_cases isQuote : c = '\''
      · rw [if_pos isQuote]
        simp [quoted, behind, isQuote, bind, Except.bind, pure, Except.pure]
      · rw [if_neg isQuote]
        obtain ⟨d, below, blanks, noBreak⟩ := dropWhile_spacing oneLine rest
        rw [List.flatMap_cons, List.append_assoc, quoteCharacter, if_neg isQuote] at blanks
        simp only [List.cons_append, List.nil_append] at blanks ⊢
        simp [quoted, behind, isQuote, blanks, noBreak, bind, Except.bind, pure, Except.pure]

end Quoted

end Uncertainty.Yaml

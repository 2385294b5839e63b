import Uncertainty.Proofs.Token.Respelling

/-!
Two texts with a blank between them. The text in front of the blank is read as if it ended there,
and the one behind it as if it began there; so the whole has the tokens of both, the latter further
on, and where one of the two has a fault, the whole has the first such fault.
-/
namespace Uncertainty

open Token (isBlank lexemeAt scan tokenize)

def Token.shift (distance : Nat) (token : Token) : Token :=
  ⟨token.lexeme, token.offset.map (· + distance)⟩

namespace LexicalError

def shift (distance : Nat) : LexicalError → LexicalError
  | unexpectedCharacter character offset => unexpectedCharacter character (offset + distance)
  | endsInPoint numeral offset => endsInPoint numeral (offset + distance)

theorem offset_shift (distance : Nat) (error : LexicalError) :
    (error.shift distance).offset = error.offset + distance := by
  cases error <;> rfl

/-- What an error says depends on its place by the number at the end only. -/
theorem exists_message_shift (distance : Nat) (error : LexicalError) :
    ∃ fault : String, error.message = s!"{fault} (at position {error.offset})" ∧
      (error.shift distance).message = s!"{fault} (at position {error.offset + distance})" := by
  have cut (front mark between number : String) :
      front ++ (mark ++ between) ++ number ++ ")" = front ++ mark ++ between ++ number ++ ")" := by
    simp only [String.append_assoc]
  cases error with
  | unexpectedCharacter character offset =>
    have told := cut s!"Unexpected character: '{character}" "'" " (at position "
    exact ⟨s!"Unexpected character: '{character}'", told _, told _⟩
  | endsInPoint numeral offset =>
    have told := cut s!"Numeric literal cannot end in a period: \"{numeral}" "\"" " (at position "
    exact ⟨s!"Numeric literal cannot end in a period: \"{numeral}\"", told _, told _⟩

end LexicalError

variable {offset distance skip : Nat} {text front rest : List Char} {c : Char}
variable {error : LexicalError}

theorem lexemeAt_shift : lexemeAt (offset + distance) text =
    (lexemeAt offset text).mapError (.shift distance) := by
  unfold lexemeAt
  split
  case h_1 => rfl
  case h_2 => rfl
  case h_3 => rfl
  case h_4 c rest _ _ =>
    split
    case h_1 => rfl
    case h_2 =>
      dsimp only
      split
      case isTrue => rfl
      case isFalse => split <;> rfl

/-- Where a text begins changes nothing but the places. -/
theorem scan_shift : scan (offset + distance) skip text =
    ((scan offset skip text).map (·.map (Token.shift distance))).mapError (.shift distance) := by
  induction text generalizing offset skip with
  | nil => cases skip <;> rfl
  | cons c rest ih =>
    cases skip with
    | succ skip =>
      rw [scan, scan, Nat.add_right_comm]
      exact ih
    | zero =>
      rw [scan, scan, Nat.add_right_comm]
      split
      case isTrue => exact ih
      case isFalse =>
        rw [lexemeAt_shift]
        cases lexemeAt offset (c :: rest) with
        | error error => rfl
        | ok found =>
          obtain ⟨lexeme, spelling⟩ := found
          dsimp only [Except.mapError, bind, Except.bind]
          rw [ih]
          cases scan (offset + 1) (spelling.length - 1) rest <;> rfl

theorem Stuck.in_front {back : List Char} {d : Char} (stuck : Stuck offset text error)
    (apart : ¬ (d.isDigit ∨ d = '.')) : Stuck offset (text ++ d :: back) error := by
  cases stuck with
  | character noBlank noSymbol noDigit noPoint =>
    exact .character noBlank noSymbol noDigit noPoint
  | point isRun ends =>
    rw [List.append_assoc]
    exact .point (isRun.in_front apart) ends

section Seams

variable {first second : String} {blank : Char} {pieces : List Piece} {stop : Nat}

def spaced (first : String) (between : Char) (second : String) : String :=
  first ++ String.singleton between ++ second

theorem toList_spaced :
    (spaced first blank second).toList = first.toList ++ blank :: second.toList := by
  simp [spaced]

theorem Split.start_spaced (split : Split 0 first.toList pieces rest) (isBlank : isBlank blank) :
    Split 0 (spaced first blank second).toList pieces (rest ++ blank :: second.toList) := by
  rw [toList_spaced]
  exact split.in_front (apart_of_blank isBlank)

/-- Where the first text comes to its end, the second one begins behind the blank. -/
theorem Split.tokenize_spaced (split : Split 0 first.toList pieces []) (isBlank : isBlank blank) :
    tokenize (spaced first blank second) =
      (((tokenize second).map (·.map (Token.shift (first.length + 1)))).mapError
        (.shift (first.length + 1))).map (pieces.map Piece.token ++ ·) := by
  have reaches : first.length + (blank :: second.toList).length =
      0 + (spaced first blank second).toList.length := by
    rw [toList_spaced, List.length_append, String.length_toList, Nat.zero_add]
  have behind : scan first.length 0 (blank :: second.toList) =
      scan (0 + (first.length + 1)) 0 second.toList := by
    rw [scan, if_pos isBlank, Nat.zero_add]
  rw [tokenize, (split.start_spaced isBlank).scan_eq reaches, List.nil_append, behind, scan_shift,
    tokenize]

theorem Stuck.tokenize_spaced (stuck : Stuck stop rest error)
    (split : Split 0 first.toList pieces rest) (reaches : stop + rest.length = first.length)
    (isBlank : isBlank blank) : tokenize (spaced first blank second) = .error error := by
  have reachesWhole : stop + (rest ++ blank :: second.toList).length =
      (spaced first blank second).length := by
    rw [← String.length_toList, toList_spaced, List.length_append, List.length_append,
      ← Nat.add_assoc, reaches, String.length_toList]
  exact (stuck.in_front (apart_of_blank isBlank).1).tokenize_eq (split.start_spaced isBlank)
    reachesWhole

end Seams

namespace Token

/-- A blank between two texts keeps them apart: the whole fails as the first text does; else it
fails as the second does, further on; else its tokens are those of the first, the end of input left
out, and those of the second, further on. -/
theorem tokenize_around_blank (first second : String) (blank : Char)
    (isBlank : blank = ' ' ∨ blank = '\t' ∨ blank = '\n') :
    let whole := first ++ String.singleton blank ++ second
    let distance := first.length + 1
    (∀ error, tokenize first = .error error → tokenize whole = .error error) ∧
    ∀ tokens, tokenize first = .ok tokens → ∃ inner,
      tokens = inner ++ [⟨.symbol .endOfInput, some first.length⟩] ∧
      (∀ error, tokenize second = .error error →
        tokenize whole = .error (error.shift distance) ∧
        (error.shift distance).offset = error.offset + distance ∧
        ∃ fault : String, error.message = s!"{fault} (at position {error.offset})" ∧
          (error.shift distance).message = s!"{fault} (at position {error.offset + distance})") ∧
      ∀ tokens', tokenize second = .ok tokens' →
        tokenize whole = .ok (inner ++ tokens'.map (Token.shift distance)) := by
  have blanks : Token.isBlank blank := by rcases isBlank with rfl | rfl | rfl <;> rfl
  intro whole distance
  obtain ⟨pieces, rest, stop, split, reaches, ending⟩ := exists_split 0 first.toList
  rw [Nat.zero_add, String.length_toList] at reaches
  rcases ending with rfl | ⟨error, stuck⟩
  · have lexed := split.tokenize_eq
    have goesOn : tokenize whole = _ := split.tokenize_spaced blanks
    rw [lexed]
    refine ⟨nofun, ?_⟩
    rintro tokens ⟨⟩
    refine ⟨_, rfl, fun error failed => ?_, fun tokens' lexed' => ?_⟩
    · rw [goesOn, failed]
      exact ⟨rfl, error.offset_shift distance, error.exists_message_shift distance⟩
    · rw [goesOn, lexed']
      rfl
  · rw [stuck.tokenize_eq split reaches]
    refine ⟨?_, nofun⟩
    rintro error ⟨⟩
    exact stuck.tokenize_spaced split reaches blanks

/-- Across a tab the `+` of `2 +` and the `-` of `-7` make no digraph, and behind it `7.` is refused
at its new place. -/
theorem tokenize_around_tab :
    ('\t' = ' ' ∨ '\t' = '\t' ∨ '\t' = '\n') ∧
    (∃ inner, tokenize "2 +" = .ok (inner ++ [⟨.symbol .endOfInput, some 3⟩]) ∧
      tokenize "2 +\t-7" = .ok (inner ++
        [⟨.symbol .minus, some 4⟩, ⟨.number ⟨"7", ""⟩, some 5⟩, ⟨.symbol .endOfInput, some 6⟩])) ∧
    tokenize "-7." = .error (.endsInPoint "7." 1) ∧
    tokenize "2 +\t-7." = .error (.endsInPoint "7." 5) := by
  have isBlank : '\t' = ' ' ∨ '\t' = '\t' ∨ '\t' = '\n' := .inr (.inl rfl)
  obtain ⟨inner, same, -, goesOn⟩ := (tokenize_around_blank "2 +" "-7" '\t' isBlank).2 _ rfl
  obtain ⟨-, -, fails, -⟩ := (tokenize_around_blank "2 +" "-7." '\t' isBlank).2 _ rfl
  have first : tokenize "2 +" = .ok (inner ++ [⟨.symbol .endOfInput, some 3⟩]) :=
    congrArg Except.ok same
  exact ⟨isBlank, ⟨inner, first, goesOn _ rfl⟩, rfl, (fails _ rfl).1⟩

end Token

end Uncertainty

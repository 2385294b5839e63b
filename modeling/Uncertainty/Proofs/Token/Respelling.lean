import Mathlib.Logic.Relation
import Uncertainty.Proofs.Expr.RoundTrip

/-!
Spellings and blanks that do not matter. A split at a place inside no lexeme falls into a split of
what stands before the place and one of what stands behind it, and the former does not depend on the
latter but for its first character. So the two spellings of one sign may be exchanged, and blanks
inserted, wherever they cut no lexeme.
-/
namespace Uncertainty

open Token (isBlank)

variable {offset stop : Nat}
variable {front back back' text text' rest run spelling following : List Char}
variable {pieces : List Piece} {piece : Piece} {lexeme : Lexeme} {c d : Char}

/-- A place strictly inside a numeral of a text. -/
def InsideNumeral (text : List Char) (place : Nat) : Prop :=
  ∃ pieces piece literal, Split 0 text pieces [] ∧ piece ∈ pieces ∧ piece.lexeme = .number literal ∧
    piece.offset < place ∧ place < piece.stop

/-- One edit: the two spellings of a sign for each other, or a blank more at a place that is not
inside a numeral and not between the two characters of a sign. -/
inductive Respelling : List Char → List Char → Prop where
  | apart {front back : List Char} :
      Respelling (front ++ '±' :: back) (front ++ '+' :: '-' :: back)
  | joined {front back : List Char} :
      Respelling (front ++ '+' :: '-' :: back) (front ++ '±' :: back)
  | blank {front back : List Char} {c : Char} (isBlank : isBlank c)
      (noNumeral : ¬ InsideNumeral (front ++ back) front.length)
      (noSign : ¬ (front.getLast? = some '+' ∧ back.head? = some '-')) :
      Respelling (front ++ back) (front ++ c :: back)

section Seams

theorem IsRun.in_front (isRun : IsRun run following) (apart : ¬ (d.isDigit ∨ d = '.')) :
    IsRun run (following ++ d :: back) := by
  refine ⟨isRun.1, fun c member => ?_⟩
  cases following with
  | nil =>
    obtain rfl := Option.some.inj member
    rw [isStretch_snoc isRun.1]
    exact fun longer => apart (longer.imp id And.left)
  | cons c' following => exact isRun.2 c member

theorem Munch.in_front (munch : Munch spelling lexeme following)
    (apart : ¬ (d.isDigit ∨ d = '.') ∧ d ≠ '-') :
    Munch spelling lexeme (following ++ d :: back) := by
  cases munch with
  | digraph => exact .digraph
  | symbol spelled noDigraph =>
    refine .symbol spelled fun plus minus => ?_
    cases following with
    | nil => exact apart.2 (Option.some.inj minus)
    | cons c following => exact noDigraph plus minus
  | numeral isRun nonempty closed writes =>
    exact .numeral (isRun.in_front apart.1) nonempty closed writes

theorem Munch.second_part {before after : List Char}
    (munch : Munch (before ++ d :: after) lexeme following) (nonempty : before ≠ []) :
    ((∃ literal, lexeme = .number literal) ∧ (d.isDigit ∨ d = '.')) ∨
      (before = ['+'] ∧ d = '-') := by
  obtain ⟨c, before, rfl⟩ := List.exists_cons_of_ne_nil nonempty
  generalize whole : c :: before ++ d :: after = spelling at munch
  cases munch with
  | digraph =>
    obtain ⟨rfl, rest⟩ := List.cons.inj whole
    cases before with
    | nil => exact .inr ⟨rfl, (List.cons.inj rest).1⟩
    | cons c' before =>
      have := congrArg List.length rest
      simp at this
  | symbol =>
    have := congrArg List.length whole
    simp at this
  | @numeral run _ literal isRun =>
    refine .inl ⟨⟨literal, rfl⟩, isRun.1.1 d ?_⟩
    simp [← whole]

theorem Split.exists_munch (split : Split offset text pieces rest) (member : piece ∈ pieces) :
    ∃ passed following, text = passed ++ (piece.spelling ++ following) ∧
      piece.offset = offset + passed.length ∧ Munch piece.spelling piece.lexeme following := by
  induction split with
  | done => cases member
  | @blank offset c text rest pieces isBlank further ih =>
    obtain ⟨passed, following, rfl, place, munch⟩ := ih member
    refine ⟨c :: passed, following, rfl, ?_, munch⟩
    rw [place, List.length_cons]
    omega
  | @lexeme offset spelling following rest lexeme pieces munch further ih =>
    rcases List.mem_cons.mp member with rfl | member
    · exact ⟨[], following, rfl, rfl, munch⟩
    · obtain ⟨passed, following, rfl, place, munch⟩ := ih member
      refine ⟨spelling ++ passed, following, (List.append_assoc ..).symm, ?_, munch⟩
      rw [place, List.length_append]
      omega

/-- A place in a text is a seam if it is strictly inside none of the pieces. -/
def IsSeam (pieces : List Piece) (place : Nat) : Prop :=
  ∀ piece ∈ pieces, ¬ (piece.offset < place ∧ place < piece.stop)

theorem Split.exists_parts (split : Split offset (front ++ back) pieces rest)
    (member : piece ∈ pieces) (begins : piece.offset < offset + front.length)
    (ends : offset + front.length < piece.stop) : ∃ passed before d after following,
      front = passed ++ before ∧ back = d :: (after ++ following) ∧ before ≠ [] ∧
        piece.spelling = before ++ d :: after ∧
        Munch (before ++ d :: after) piece.lexeme following := by
  obtain ⟨passed, following, same, place, munch⟩ := split.exists_munch member
  rw [Piece.stop] at ends
  rcases List.append_eq_append_iff.mp same with ⟨more, rfl, -⟩ | ⟨before, rfl, cut⟩
  · rw [List.length_append] at place
    omega
  rw [List.length_append] at begins ends
  have nonempty : before ≠ [] := List.ne_nil_of_length_pos (by omega)
  rcases List.append_eq_append_iff.mp cut with ⟨more, whole, -⟩ | ⟨more, whole, rfl⟩
  · have := congrArg List.length whole
    rw [List.length_append] at this
    omega
  · cases more with
    | nil =>
      have := congrArg List.length whole
      rw [List.append_nil] at this
      omega
    | cons d after =>
      rw [whole] at munch
      exact ⟨passed, before, d, after, following, rfl, rfl, nonempty, whole, munch⟩

/-- A split falls apart at a seam. -/
theorem Split.exists_halves (split : Split offset (front ++ back) pieces [])
    (seam : IsSeam pieces (offset + front.length)) :
    ∃ before after, pieces = before ++ after ∧ Split offset front before [] ∧
      Split (offset + front.length) back after [] := by
  generalize same : front ++ back = text, nothing : ([] : List Char) = rest at split
  induction split generalizing front with
  | done =>
    subst nothing
    obtain ⟨rfl, rfl⟩ := List.append_eq_nil_iff.mp same
    exact ⟨[], [], rfl, .done, .done⟩
  | @blank offset c text rest pieces isBlank further ih =>
    subst nothing
    cases front with
    | nil =>
      subst same
      exact ⟨[], pieces, rfl, .done, .blank isBlank further⟩
    | cons c front =>
      obtain ⟨rfl, rfl⟩ := List.cons.inj same
      have shift : offset + (c :: front).length = offset + 1 + front.length := by
        rw [List.length_cons]
        omega
      rw [shift] at seam ⊢
      obtain ⟨before, after, rfl, first, second⟩ := ih seam rfl rfl
      exact ⟨before, after, rfl, .blank isBlank first, second⟩
  | @lexeme offset spelling following rest lexeme pieces munch further ih =>
    subst nothing
    by_cases empty : front = []
    · subst empty same
      exact ⟨[], _, rfl, .done, .lexeme munch further⟩
    rcases List.append_eq_append_iff.mp same with ⟨more, rfl, rfl⟩ | ⟨more, rfl, rfl⟩
    · -- the seam is inside the piece or right behind it
      have uncut := seam _ List.mem_cons_self
      have := List.length_pos_iff.mpr empty
      simp only [Piece.stop, List.length_append] at uncut
      obtain rfl : more = [] := List.eq_nil_of_length_eq_zero (by omega)
      rw [List.append_nil] at munch further
      have alone : Split offset (front ++ []) [⟨offset, front, lexeme⟩] [] :=
        .lexeme (Munch.of_append munch) .done
      rw [List.append_nil] at alone ⊢
      exact ⟨[_], pieces, rfl, alone, further⟩
    · have shift : offset + (spelling ++ more).length = offset + spelling.length + more.length := by
        rw [List.length_append, Nat.add_assoc]
      have seamBehind : IsSeam pieces (offset + spelling.length + more.length) := by
        intro piece member
        rw [← shift]
        exact seam piece (List.mem_cons_of_mem _ member)
      obtain ⟨before, after, rfl, first, second⟩ := ih seamBehind rfl rfl
      refine ⟨_ :: before, after, rfl, ?_, ?_⟩
      · exact .lexeme munch.of_append first
      · rwa [shift]

/-- Behind a text there may stand what begins with a character that goes on with no lexeme. -/
theorem Split.in_front (split : Split offset front pieces rest)
    (apart : ¬ (d.isDigit ∨ d = '.') ∧ d ≠ '-') :
    Split offset (front ++ d :: back) pieces (rest ++ d :: back) := by
  induction split with
  | done => exact .done
  | blank isBlank further ih => exact .blank isBlank ih
  | lexeme munch further ih =>
    rw [List.append_assoc]
    exact .lexeme (munch.in_front apart) ih

theorem Split.shift (split : Split offset text pieces rest) (offset' : Nat) :
    ∃ pieces', Split offset' text pieces' rest ∧
      pieces'.map Piece.lexeme = pieces.map Piece.lexeme := by
  induction split generalizing offset' with
  | done => exact ⟨[], .done, rfl⟩
  | blank isBlank further ih =>
    obtain ⟨pieces', split, same⟩ := ih (offset' + 1)
    exact ⟨pieces', .blank isBlank split, same⟩
  | @lexeme offset spelling following rest lexeme pieces munch further ih =>
    obtain ⟨pieces', split, same⟩ := ih (offset' + spelling.length)
    refine ⟨⟨offset', spelling, lexeme⟩ :: pieces', .lexeme munch split, ?_⟩
    rw [List.map_cons, List.map_cons, same]

theorem Split.replace (split : Split offset (front ++ back) pieces [])
    (seam : IsSeam pieces (offset + front.length)) (apart : ¬ (d.isDigit ∨ d = '.') ∧ d ≠ '-')
    (behind : ∀ after, Split (offset + front.length) back after [] →
      ∃ after', Split (offset + front.length) (d :: back') after' [] ∧
        after'.map Piece.lexeme = after.map Piece.lexeme) :
    ∃ pieces', Split offset (front ++ d :: back') pieces' [] ∧
      pieces'.map Piece.lexeme = pieces.map Piece.lexeme := by
  obtain ⟨before, after, rfl, first, second⟩ := split.exists_halves seam
  obtain ⟨after', second', same⟩ := behind after second
  have reaches : offset + front.length + (d :: back').length =
      offset + (front ++ d :: back').length := by
    rw [List.length_append, Nat.add_assoc]
  refine ⟨before ++ after', (first.in_front apart).append second' reaches, ?_⟩
  rw [List.map_append, List.map_append, same]

end Seams

section Edits

theorem Split.behind_lexeme (split : Split offset (spelling ++ following) pieces [])
    (munch : Munch spelling lexeme following) :
    ∃ after, pieces = ⟨offset, spelling, lexeme⟩ :: after ∧
      Split (offset + spelling.length) following after [] := by
  generalize same : spelling ++ following = text, nothing : ([] : List Char) = rest at split
  cases split with
  | done =>
    subst nothing
    exact absurd (List.append_eq_nil_iff.mp same).1 munch.ne_nil
  | @blank _ c text _ _ isBlank =>
    obtain ⟨c', spelling, rfl⟩ := List.exists_cons_of_ne_nil munch.ne_nil
    obtain ⟨rfl, -⟩ := List.cons.inj same
    rw [munch.not_blank] at isBlank
    cases isBlank
  | @lexeme _ spelling' following' _ lexeme' pieces munch' further =>
    subst nothing
    have found : Token.lexemeAt offset (spelling ++ following) = .ok (lexeme, spelling) :=
      munch.lexemeAt_eq
    rw [same, munch'.lexemeAt_eq] at found
    obtain ⟨rfl, rfl⟩ := Prod.mk.inj (Except.ok.inj found)
    rw [List.append_cancel_left same]
    exact ⟨pieces, rfl, further⟩

/-- Where a character stands that is no second part of a lexeme, there is a seam. -/
theorem Split.isSeam (split : Split offset (front ++ d :: back) pieces rest)
    (apart : ¬ (d.isDigit ∨ d = '.') ∧ d ≠ '-') : IsSeam pieces (offset + front.length) := by
  rintro piece member ⟨begins, ends⟩
  obtain ⟨passed, before, d', after, following, -, same, nonempty, -, munch⟩ :=
    split.exists_parts member begins ends
  obtain ⟨rfl, -⟩ := List.cons.inj same
  rcases munch.second_part nonempty with ⟨-, goesOn⟩ | ⟨-, minus⟩
  · exact apart.1 goesOn
  · exact apart.2 minus

theorem Split.isSeam_of_blank (split : Split 0 (front ++ back) pieces [])
    (noNumeral : ¬ InsideNumeral (front ++ back) front.length)
    (noSign : ¬ (front.getLast? = some '+' ∧ back.head? = some '-')) :
    IsSeam pieces (0 + front.length) := by
  rintro piece member ⟨begins, ends⟩
  obtain ⟨passed, before, d, after, following, rfl, rfl, nonempty, -, munch⟩ :=
    split.exists_parts member begins ends
  rcases munch.second_part nonempty with ⟨⟨literal, isNumber⟩, -⟩ | ⟨rfl, rfl⟩
  · rw [Nat.zero_add] at begins ends
    exact noNumeral ⟨pieces, piece, literal, split, member, isNumber, begins, ends⟩
  · exact noSign ⟨by simp, rfl⟩

theorem apart_of_blank (isBlank : isBlank c) : ¬ (c.isDigit ∨ c = '.') ∧ c ≠ '-' := by
  refine ⟨fun goesOn => ?_, ?_⟩
  · rw [not_blank_of_digit goesOn] at isBlank
    cases isBlank
  · rintro rfl
    cases isBlank

theorem munch_sign : Munch ['±'] (.symbol .plusMinus) following :=
  .symbol rfl nofun

theorem Respelling.exists_split (edit : Respelling text text') (split : Split 0 text pieces []) :
    ∃ pieces', Split 0 text' pieces' [] ∧
      pieces'.map Piece.lexeme = pieces.map Piece.lexeme := by
  cases edit with
  | @apart front back =>
    refine split.replace (split.isSeam (by decide)) (by decide) fun after splitAfter => ?_
    have signFirst : Split (0 + front.length) (['±'] ++ back) after [] := splitAfter
    obtain ⟨after, rfl, further⟩ := signFirst.behind_lexeme munch_sign
    obtain ⟨after', further', same⟩ := further.shift (0 + front.length + 2)
    exact ⟨_, .lexeme .digraph further', congrArg (_ :: ·) same⟩
  | @joined front back =>
    refine split.replace (split.isSeam (by decide)) (by decide) fun after splitAfter => ?_
    have signFirst : Split (0 + front.length) (['+', '-'] ++ back) after [] := splitAfter
    obtain ⟨after, rfl, further⟩ := signFirst.behind_lexeme .digraph
    obtain ⟨after', further', same⟩ := further.shift (0 + front.length + 1)
    exact ⟨_, .lexeme munch_sign further', congrArg (_ :: ·) same⟩
  | @blank front back c isBlank noNumeral noSign =>
    have seam := split.isSeam_of_blank noNumeral noSign
    refine split.replace seam (apart_of_blank isBlank) fun after splitAfter => ?_
    obtain ⟨after', further', same⟩ := splitAfter.shift (0 + front.length + 1)
    exact ⟨after', .blank isBlank further', same⟩

theorem Respelling.exists_split_of_edits (edits : Relation.ReflTransGen Respelling text text')
    (split : Split 0 text pieces []) :
    ∃ pieces', Split 0 text' pieces' [] ∧
      pieces'.map Piece.lexeme = pieces.map Piece.lexeme := by
  induction edits with
  | refl => exact ⟨pieces, split, rfl⟩
  | tail _ edit ih =>
    obtain ⟨pieces', split', same⟩ := ih
    obtain ⟨pieces'', split'', same'⟩ := edit.exists_split split'
    exact ⟨pieces'', split'', same'.trans same⟩

theorem Split.of_tokenize {text : String} {tokens : List Token}
    (lexed : Token.tokenize text = .ok tokens) : ∃ pieces, Split 0 text.toList pieces [] ∧
      tokens = pieces.map Piece.token ++ [⟨.symbol .endOfInput, some text.length⟩] := by
  obtain ⟨pieces, rest, stop, split, reaches, ending⟩ := exists_split 0 text.toList
  rw [Nat.zero_add, String.length_toList] at reaches
  rcases ending with rfl | ⟨error, stuck⟩
  · rw [split.tokenize_eq] at lexed
    exact ⟨pieces, split, (Except.ok.inj lexed).symm⟩
  · rw [stuck.tokenize_eq split reaches] at lexed
    cases lexed

/-- A text that any number of edits make of one with tokens has tokens with the same lexemes. -/
theorem Respelling.exists_tokens {text text' : String} {tokens : List Token}
    (edits : Relation.ReflTransGen Respelling text.toList text'.toList)
    (lexed : Token.tokenize text = .ok tokens) :
    ∃ tokens', Token.tokenize text' = .ok tokens' ∧
      tokens'.map Token.lexeme = tokens.map Token.lexeme := by
  obtain ⟨pieces, split, rfl⟩ := Split.of_tokenize lexed
  obtain ⟨pieces', split', same⟩ := exists_split_of_edits edits split
  refine ⟨_, split'.tokenize_eq, ?_⟩
  have lexemes (pieces : List Piece) :
      (pieces.map Piece.token).map Token.lexeme = pieces.map Piece.lexeme := by
    rw [List.map_map]
    rfl
  rw [List.map_append, List.map_append, lexemes, lexemes, same]
  rfl

end Edits

end Uncertainty

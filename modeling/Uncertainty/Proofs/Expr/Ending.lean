import Mathlib.Data.List.TakeWhile
import Uncertainty.Calculation
import Uncertainty.Proofs.Expr.Contract

/-!
Where the tokens of an expression end. What stands behind the first end of input is not looked at:
each part of the parser does on tokens that are followed by the end of input what it does on these
tokens alone, where the end of input is made up, and it leaves what follows.
-/
namespace Uncertainty

/-- What is told of an error: its kind and its message. -/
def ParseError.told (error : ParseError) : String × String :=
  ((Failure.parsing error).category, error.message)

def IsInner (tokens : List Token) : Prop :=
  ∀ token ∈ tokens, token.lexeme ≠ .symbol .endOfInput

def AtEnd (tokens : List Token) : Prop :=
  (tokens.headD .endOfInput).lexeme = .symbol .endOfInput

variable {tokens front ending : List Token} {token : Token} {power : Nat}

theorem IsInner.of_suffix (inner : IsInner tokens) (behind : front <:+ tokens) : IsInner front :=
  fun token member => inner token (behind.subset member)

theorem IsInner.tail (inner : IsInner (token :: tokens)) : IsInner tokens :=
  inner.of_suffix (List.suffix_cons token tokens)

theorem Stops.before_end (stops : Stops power front) (atEnd : AtEnd ending) :
    Stops power (front ++ ending) := by
  cases front with
  | cons token front => exact stops
  | nil =>
    cases ending with
    | nil => exact stops_nil
    | cons token ending => exact stops_end atEnd

namespace Parser

variable {limit : Int} {levels rounds : Nat} {left : Expr}
variable {nested : Nat → Parser Expr}

theorem fault_end {found : Token} (ends : found.lexeme = .symbol .endOfInput)
    (error : SyntaxError) : fault found error = .malformed error := by
  rw [fault, ends]
  rfl

/-- All ends of input look the same in an error that one of them causes. -/
theorem told_unexpected {found : Token} (ends : found.lexeme = .symbol .endOfInput) :
    (fault found (.unexpected found)).told = ("syntax", "Unexpected end of expression") := by
  rw [fault_end ends]
  exact congrArg (Prod.mk "syntax") (if_pos ends)

theorem told_unclosed {paren found : Token} (ends : found.lexeme = .symbol .endOfInput) :
    (fault found (.unclosed paren found)).told = ("syntax",
      s!"Missing closing parenthesis for '(' at position {paren.position}, found " ++
        "end of input") := by
  rw [fault_end ends]
  exact congrArg (fun text => ("syntax", _ ++ text)) (if_pos ends)

/-- What one parser does on tokens that the end of input follows, as told by what another does on
these tokens alone. -/
def Alike (parser : Parser Expr) (front ending : List Token) (other : Parser Expr) : Prop :=
  Ensures parser front
    (fun tree rest => rest <:+ front ∧ other.run (front ++ ending) = .ok tree (rest ++ ending))
    (fun error _ => ∃ error' unread, other.run (front ++ ending) = .error error' unread ∧
      error'.told = error.told)

def EndsAlike (parser : Parser Expr) : Prop :=
  ∀ front ending, IsInner front → AtEnd ending → Alike parser front ending parser

theorem operand_run_end (atEnd : AtEnd ending) : ∃ error unread,
    (operand nested).run ending = .error error unread ∧
      error.told = (fault .endOfInput (.unexpected .endOfInput)).told := by
  cases ending with
  | nil => exact ⟨_, _, rfl, rfl⟩
  | cons token ending =>
    have ends : token.lexeme = .symbol .endOfInput := atEnd
    have refused := @operand_run_other nested token ending (by rw [ends]; rfl)
      (by rw [ends]; decide) (by rw [ends]; decide)
    exact ⟨_, _, refused, (told_unexpected ends).trans (told_unexpected rfl).symm⟩

theorem operand_run_unclosed {tree : Expr} (opens : token.lexeme = .symbol .leftParen)
    (atEnd : AtEnd ending) (ran : (nested 0).run tokens = .ok tree ending) : ∃ error unread,
      (operand nested).run (token :: tokens) = .error error unread ∧
        error.told = (fault .endOfInput (.unclosed token .endOfInput)).told := by
  rw [operand_run_parens opens, ran]
  cases ending with
  | nil => exact ⟨_, _, rfl, rfl⟩
  | cons found ending =>
    have ends : found.lexeme = .symbol .endOfInput := atEnd
    have unclosed : found.lexeme ≠ .symbol .rightParen := by
      rw [ends]
      decide
    exact ⟨_, _, if_neg unclosed, (told_unclosed ends).trans (told_unclosed rfl).symm⟩

theorem operand_endsAlike (inner : ∀ power, EndsAlike (nested power)) :
    EndsAlike (operand nested) := by
  intro front ending innerFront atEnd
  cases front with
  | nil => exact ensures_operand rfl nofun nofun nofun fun _ _ _ => operand_run_end atEnd
  | cons token front =>
    have isHead : (token :: front).headD .endOfInput = token := rfl
    have behind : front <:+ token :: front := List.suffix_cons token front
    refine ensures_operand isHead (fun isAtom => ?_) (fun opens => ?_) (fun isMinus => ?_)
      fun noAtom noParen noMinus => ?_
    · exact ⟨behind, operand_run_atom isAtom⟩
    · refine (inner 0 front ending innerFront.tail atEnd).imp ?_ ?_
      · rintro tree rest ⟨suffix, ran⟩
        cases rest with
        | nil => exact ⟨nofun, fun _ => operand_run_unclosed opens atEnd ran⟩
        | cons closing rest =>
          have behindRest : rest <:+ token :: front :=
            (List.suffix_cons closing rest).trans (suffix.trans behind)
          rw [List.cons_append, operand_run_parens opens, ran]
          refine ⟨fun closes => ⟨behindRest, if_pos closes⟩, fun unclosed => ?_⟩
          exact ⟨_, _, if_neg unclosed, rfl⟩
      · rintro error unread ⟨error', unread', ran, same⟩
        refine ⟨error', unread', ?_, same⟩
        rw [List.cons_append, operand_run_parens opens, ran]
    · refine (inner _ front ending innerFront.tail atEnd).imp ?_ ?_
      · rintro tree rest ⟨suffix, ran⟩
        refine ⟨suffix.trans behind, ?_⟩
        rw [List.cons_append, operand_run_minus isMinus, ran]
      · rintro error unread ⟨error', unread', ran, same⟩
        refine ⟨error', unread', ?_, same⟩
        rw [List.cons_append, operand_run_minus isMinus, ran]
    · exact ⟨_, _, operand_run_other noAtom noParen noMinus, rfl⟩

/-- The other run has come to the same point, with rounds enough for what it has yet to read. -/
theorem extend_alike (inner : ∀ power, EndsAlike (nested power)) (innerFront : IsInner front)
    (atEnd : AtEnd ending) :
    Alike (extend nested power front.length left) front ending
      (extend nested power (front ++ ending).length left) := by
  refine ensures_extend
    (fun reached unread => unread <:+ front ∧ ∃ rounds, (unread ++ ending).length ≤ rounds ∧
      (extend nested power (front ++ ending).length left).run (front ++ ending) =
        (extend nested power rounds reached).run (unread ++ ending))
    (Nat.le_refl _) ⟨List.suffix_refl _, _, Nat.le_refl _, rfl⟩ ?_ ?_ ?_ ?_
  · rintro reached unread ⟨suffix, rounds, -, same⟩ stops
    exact ⟨suffix, by rw [same, extend_run_stop (stops.before_end atEnd)]⟩
  · rintro reached paren unread ⟨-, rounds, enough, same⟩ opens
    obtain ⟨rounds, rfl⟩ := Nat.exists_eq_add_one_of_ne_zero (Nat.ne_zero_of_lt enough)
    exact ⟨_, _, by rw [same, List.cons_append, extend_run_parens opens], rfl⟩
  · rintro reached found unread ⟨-, rounds, enough, same⟩ isAtom
    obtain ⟨rounds, rfl⟩ := Nat.exists_eq_add_one_of_ne_zero (Nat.ne_zero_of_lt enough)
    exact ⟨_, _, by rw [same, List.cons_append, extend_run_atom isAtom], rfl⟩
  · rintro reached sign unread operator ⟨suffix, rounds, enough, same⟩ spelled binds
    obtain ⟨rounds, rfl⟩ := Nat.exists_eq_add_one_of_ne_zero (Nat.ne_zero_of_lt enough)
    have innerUnread := innerFront.of_suffix suffix
    rw [List.cons_append, extend_run_step spelled binds] at same
    refine (inner _ unread ending innerUnread.tail atEnd).imp ?_ ?_
    · rintro right rest ⟨suffixRight, ran⟩
      have shorter := suffixRight.length_le
      rw [ran] at same
      refine ⟨shorter, suffixRight.trans ((List.suffix_cons sign unread).trans suffix), rounds, ?_,
        same⟩
      simp only [List.length_append, List.length_cons] at enough ⊢
      omega
    · rintro error rest ⟨error', rest', ran, told⟩
      exact ⟨error', rest', by rw [same, ran], told⟩

theorem expression_endsAlike (levels power : Nat) :
    EndsAlike (expression limit levels power) := by
  induction levels generalizing power with
  | zero => exact fun _ _ _ _ => ⟨_, _, rfl, rfl⟩
  | succ levels ih =>
    intro front ending innerFront atEnd
    apply ensures_expression
    refine (operand_endsAlike ih front ending innerFront atEnd).imp ?_ ?_
    · rintro left rest ⟨suffix, ran⟩
      refine (extend_alike ih (innerFront.of_suffix suffix) atEnd).imp ?_ ?_
      · rintro tree unread ⟨suffix', ran'⟩
        exact ⟨suffix'.trans suffix, by rw [expression_run_succ, ran]; exact ran'⟩
      · rintro error unread ⟨error', unread', ran', same⟩
        exact ⟨error', unread', by rw [expression_run_succ, ran]; exact ran', same⟩
    · rintro error unread ⟨error', unread', ran, same⟩
      exact ⟨error', unread', by rw [expression_run_succ, ran], same⟩

theorem whole_alike (innerFront : IsInner front) (atEnd : AtEnd ending) :
    Ensures (whole limit) front
      (fun tree rest => rest = [] ∧ (whole limit).run (front ++ ending) = .ok tree ending)
      (fun error _ => ∃ error' unread,
        (whole limit).run (front ++ ending) = .error error' unread ∧ error'.told = error.told) := by
  apply ensures_whole
  refine (expression_endsAlike _ _ front ending innerFront atEnd).imp ?_ ?_
  · rintro tree rest ⟨suffix, ran⟩
    have innerRest := innerFront.of_suffix suffix
    rw [whole_run, ran]
    cases rest with
    | nil => exact ⟨fun _ => ⟨rfl, if_pos atEnd⟩, nofun, fun unfinished => absurd rfl unfinished⟩
    | cons trailing rest =>
      have isInner : trailing.lexeme ≠ .symbol .endOfInput := innerRest _ List.mem_cons_self
      refine ⟨fun ends => absurd ends isInner, fun closes => ?_, fun _ noClosing => ?_⟩
      · exact ⟨_, _, (if_neg isInner).trans (if_pos closes), rfl⟩
      · exact ⟨_, _, (if_neg isInner).trans (if_neg noClosing), rfl⟩
  · rintro error unread ⟨error', unread', ran, same⟩
    exact ⟨error', unread', by rw [whole_run, ran], same⟩

end Parser

theorem exists_ending (tokens : List Token) :
    let before := tokens.takeWhile (·.lexeme ≠ .symbol .endOfInput)
    ∃ ending, tokens = before ++ ending ∧ IsInner before ∧ AtEnd ending := by
  refine ⟨_, List.takeWhile_append_dropWhile.symm, fun token member => ?_, ?_⟩
  · simpa using List.mem_takeWhile_imp member
  · cases found : tokens.dropWhile (·.lexeme ≠ .symbol .endOfInput) with
    | nil => rfl
    | cons token ending =>
      have stopped := List.head?_dropWhile_not (·.lexeme ≠ .symbol .endOfInput) tokens
      rw [found] at stopped
      have ends : token.lexeme = .symbol .endOfInput := by simpa using stopped
      exact ends

namespace Expr

/-- Whatever stands at the first end of input and behind it, the tokens before it make the same
expression or the same error; and where they make an expression, they are what is read. -/
theorem ofTokens_before_end (limit : Int) (tokens : List Token) :
    let before := tokens.takeWhile (·.lexeme ≠ .symbol .endOfInput)
    (ofTokens limit tokens).1.mapError ParseError.told =
      (ofTokens limit before).1.mapError ParseError.told ∧
    ∀ tree, (ofTokens limit tokens).1 = .ok tree →
      ∃ rest next, (ofTokens limit tokens).2 = rest ∧ tokens = before ++ rest ∧
        Parser.peek.run rest = .ok next rest ∧ next.lexeme = .symbol .endOfInput := by
  intro before
  obtain ⟨ending, whole, innerBefore, atEnd⟩ := exists_ending tokens
  have alike := @Parser.whole_alike before ending limit innerBefore atEnd
  rw [← whole] at alike
  unfold ofTokens
  cases ran : (Parser.whole limit).run before with
  | ok tree rest =>
    obtain ⟨-, ran'⟩ := alike.of_ok ran
    rw [ran']
    exact ⟨rfl, fun _ _ => ⟨ending, _, rfl, whole, rfl, atEnd⟩⟩
  | error error rest =>
    obtain ⟨error', unread, ran', same⟩ := alike.of_error ran
    rw [ran']
    exact ⟨congrArg Except.error same, nofun⟩

end Expr

end Uncertainty

import Uncertainty.Proofs.Expr.Parsing

/-!
Contracts of the parser: what holds of its result and of the tokens that it leaves, or of its error.
Each of its parts has one rule, from which every property of a whole run is put together: the rule
of an operand has a premise for each kind of token that may stand there, and the rule of what
extends an operand has an invariant.
-/
namespace Uncertainty

namespace Parser

variable {α : Type} {nested : Nat → Parser Expr} {power rounds levels : Nat} {limit : Int}
variable {left tree : Expr} {tokens : List Token}

/-- On these tokens a parser comes to a result and a rest as told by `done`, or to an error and a
rest as told by `failed`. -/
def Ensures (parser : Parser α) (tokens : List Token) (done : α → List Token → Prop)
    (failed : ParseError → List Token → Prop) : Prop :=
  match parser.run tokens with
  | .ok a rest => done a rest
  | .error error rest => failed error rest

section Rules

variable {parser : Parser α} {done done' : α → List Token → Prop}
variable {failed failed' : ParseError → List Token → Prop}

theorem Ensures.imp (holds : Ensures parser tokens done failed)
    (onResult : ∀ a rest, done a rest → done' a rest)
    (onError : ∀ error rest, failed error rest → failed' error rest) :
    Ensures parser tokens done' failed' := by
  unfold Ensures at *
  cases ran : parser.run tokens with
  | ok a rest =>
    rw [ran] at holds
    exact onResult a rest holds
  | error error rest =>
    rw [ran] at holds
    exact onError error rest holds

theorem Ensures.mono (holds : Ensures parser tokens done failed)
    (onResult : ∀ a rest, done a rest → done' a rest) : Ensures parser tokens done' failed :=
  holds.imp onResult fun _ _ failure => failure

theorem Ensures.of_ok {a : α} {rest : List Token} (holds : Ensures parser tokens done failed)
    (ran : parser.run tokens = .ok a rest) : done a rest := by
  rw [Ensures, ran] at holds
  exact holds

theorem Ensures.of_error {error : ParseError} {rest : List Token}
    (holds : Ensures parser tokens done failed) (ran : parser.run tokens = .error error rest) :
    failed error rest := by
  rw [Ensures, ran] at holds
  exact holds

end Rules

variable {done : Expr → List Token → Prop} {failed : ParseError → List Token → Prop}

theorem ensures_operand {head : Token} (isHead : tokens.headD .endOfInput = head)
    (atom : head.lexeme.isAtom → done (.atom head) tokens.tail)
    (parens : head.lexeme = .symbol .leftParen →
      Ensures (nested 0) tokens.tail (fun inner rest =>
        ((rest.headD .endOfInput).lexeme = .symbol .rightParen → done inner rest.tail) ∧
        ((rest.headD .endOfInput).lexeme ≠ .symbol .rightParen →
          failed (fault (rest.headD .endOfInput) (.unclosed head (rest.headD .endOfInput)))
            rest.tail)) failed)
    (negation : head.lexeme = .symbol .minus →
      Ensures (nested Operator.negationPower) tokens.tail
        (fun x rest => done (.group head [x]) rest) failed)
    (other : head.lexeme.isAtom = false → head.lexeme ≠ .symbol .leftParen →
      head.lexeme ≠ .symbol .minus → failed (fault head (.unexpected head)) tokens.tail) :
    Ensures (operand nested) tokens done failed := by
  unfold Ensures
  cases tokens with
  | nil =>
    subst isHead
    exact other rfl (by decide) (by decide)
  | cons token tokens =>
    obtain rfl : token = head := isHead
    by_cases isAtom : token.lexeme.isAtom
    · rw [operand_run_atom isAtom]
      exact atom isAtom
    by_cases opens : token.lexeme = .symbol .leftParen
    · rw [operand_run_parens opens]
      have holds := parens opens
      unfold Ensures at holds
      rw [List.tail_cons] at holds
      cases ran : (nested 0).run tokens with
      | error error rest =>
        rw [ran] at holds
        exact holds
      | ok inner rest =>
        rw [ran] at holds
        cases rest with
        | nil => exact holds.2 (by decide)
        | cons closing rest =>
          dsimp only
          by_cases closes : closing.lexeme = .symbol .rightParen
          · rw [if_pos closes]
            exact holds.1 closes
          · rw [if_neg closes]
            exact holds.2 closes
    by_cases isMinus : token.lexeme = .symbol .minus
    · rw [operand_run_minus isMinus]
      have holds := negation isMinus
      unfold Ensures at holds
      rw [List.tail_cons] at holds
      cases ran : (nested Operator.negationPower).run tokens <;> rw [ran] at holds <;> exact holds
    · have noAtom := Bool.eq_false_iff.mpr isAtom
      rw [operand_run_other noAtom opens isMinus]
      exact other noAtom opens isMinus

/-- The rounds are enough as long as what extends an operand is no longer than their number. -/
theorem ensures_extend (invariant : Expr → List Token → Prop) (enough : tokens.length ≤ rounds)
    (holds : invariant left tokens)
    (stop : ∀ left tokens, invariant left tokens → Stops power tokens → done left tokens)
    (parens : ∀ left token tokens, invariant left (token :: tokens) →
      token.lexeme = .symbol .leftParen →
        failed (fault token (.missingOperator token)) (token :: tokens))
    (atom : ∀ left token tokens, invariant left (token :: tokens) → token.lexeme.isAtom →
      failed (fault token (.unexpected token)) (token :: tokens))
    (step : ∀ left sign tokens operator, invariant left (sign :: tokens) →
      Operator.ofLexeme? sign.lexeme = some operator → power ≤ operator.leftPower →
        Ensures (nested operator.rightPower) tokens (fun right rest =>
          rest.length ≤ tokens.length ∧ invariant (.group sign [left, right]) rest) failed) :
    Ensures (extend nested power rounds left) tokens done failed := by
  unfold Ensures
  induction rounds generalizing left tokens with
  | zero =>
    obtain rfl := List.length_eq_zero_iff.mp (Nat.le_zero.mp enough)
    exact stop left [] holds stops_nil
  | succ rounds ih =>
    cases tokens with
    | nil =>
      rw [extend_run_stop stops_nil]
      exact stop left [] holds stops_nil
    | cons token tokens =>
      rcases stops_or_goesOn power token tokens with
        stops | opens | isAtom | ⟨operator, spelled, binds⟩
      · rw [extend_run_stop stops]
        exact stop left _ holds stops
      · rw [extend_run_parens opens]
        exact parens left token tokens holds opens
      · rw [extend_run_atom isAtom]
        exact atom left token tokens holds isAtom
      · rw [extend_run_step spelled binds]
        have right := step left token tokens operator holds spelled binds
        unfold Ensures at right
        cases ran : (nested operator.rightPower).run tokens with
        | error error rest =>
          rw [ran] at right
          exact right
        | ok tree rest =>
          rw [ran] at right
          rw [List.length_cons] at enough
          exact ih (Nat.le_trans right.1 (Nat.le_of_succ_le_succ enough)) right.2

theorem ensures_expression
    (holds : Ensures (operand (expression limit levels)) tokens (fun left rest =>
      Ensures (extend (expression limit levels) power rest.length left) rest done failed) failed) :
    Ensures (expression limit (levels + 1) power) tokens done failed := by
  unfold Ensures at *
  rw [expression_run_succ]
  cases ran : (operand (expression limit levels)).run tokens with
  | ok left rest =>
    rw [ran] at holds
    exact holds
  | error error rest =>
    rw [ran] at holds
    exact holds

theorem ensures_whole
    (holds : Ensures (expression limit limit.toNat 0) tokens (fun tree rest =>
      ((rest.headD .endOfInput).lexeme = .symbol .endOfInput → done tree rest) ∧
      ((rest.headD .endOfInput).lexeme = .symbol .rightParen →
        failed (fault (rest.headD .endOfInput) (.unmatched (rest.headD .endOfInput))) rest) ∧
      ((rest.headD .endOfInput).lexeme ≠ .symbol .endOfInput →
        (rest.headD .endOfInput).lexeme ≠ .symbol .rightParen →
          failed (fault (rest.headD .endOfInput) (.unexpected (rest.headD .endOfInput))) rest))
      failed) :
    Ensures (whole limit) tokens done failed := by
  unfold Ensures at *
  rw [whole_run]
  cases ran : (expression limit limit.toNat 0).run tokens with
  | error error rest =>
    rw [ran] at holds
    exact holds
  | ok tree rest =>
    rw [ran] at holds
    obtain ⟨ends, closes, other⟩ := holds
    by_cases atEnd : (rest.headD .endOfInput).lexeme = .symbol .endOfInput
    · simp only [atEnd, ↓reduceIte]
      exact ends atEnd
    by_cases closing : (rest.headD .endOfInput).lexeme = .symbol .rightParen
    · simp only [closing, ↓reduceIte]
      exact closes closing
    · simp only [atEnd, closing, ↓reduceIte]
      exact other atEnd closing

end Parser
end Uncertainty

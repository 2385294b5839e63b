import Uncertainty.Expr.Parser
import Uncertainty.Proofs.Expr.Reading

/-!
What the parser accepts. Each of its steps has an equation for each kind of token that it can meet;
from these, a run within a number of levels succeeds exactly if reading makes a phrase that nests no
deeper, and otherwise fails for its depth. On a whole list of tokens that is the grammar.
-/
namespace Uncertainty

open EStateM (Result)

namespace Parser

variable {nested : Nat → Parser Expr} {power rounds levels : Nat} {limit : Int} {left tree : Expr}
variable {token sign : Token} {tokens rest : List Token} {operator : Operator}

/-- The error of a parser that fails for a token: that the token has no text goes first. -/
def fault (found : Token) (error : SyntaxError) : ParseError :=
  found.lexeme.textless?.elim (.malformed error) .textless

@[simp] theorem next_run : next.run tokens = .ok (tokens.headD .endOfInput) tokens.tail := rfl

@[simp] theorem peek_run : peek.run tokens = .ok (tokens.headD .endOfInput) tokens := rfl

@[simp] theorem failAt_run {α : Type} (found : Token) (error : SyntaxError) :
    (failAt (α := α) found error).run tokens = .error (fault found error) tokens := rfl

theorem operand_run_atom (isAtom : token.lexeme.isAtom) :
    (operand nested).run (token :: tokens) = .ok (.atom token) tokens := by
  simp [operand, isAtom]

theorem operand_run_parens (opens : token.lexeme = .symbol .leftParen) :
    (operand nested).run (token :: tokens) =
      match (nested 0).run tokens with
      | .ok inner (closing :: rest) =>
        if closing.lexeme = .symbol .rightParen then .ok inner rest
        else .error (fault closing (.unclosed token closing)) rest
      | .ok _ [] => .error (.malformed (.unclosed token .endOfInput)) []
      | .error error rest => .error error rest := by
  simp only [operand, EStateM.run_bind, next_run, List.headD_cons, List.tail_cons, opens,
    Lexeme.isAtom, Bool.false_eq_true, ↓reduceIte]
  cases (nested 0).run tokens with
  | error => rfl
  | ok inner rest =>
    cases rest with
    | nil => rfl
    | cons closing rest =>
      by_cases closes : closing.lexeme = .symbol .rightParen
      · simp only [List.headD_cons, List.tail_cons, closes, ↓reduceIte, EStateM.run_pure]
      · simp only [List.headD_cons, List.tail_cons, closes, ↓reduceIte, failAt_run]

theorem operand_run_minus (isMinus : token.lexeme = .symbol .minus) :
    (operand nested).run (token :: tokens) =
      match (nested Operator.negationPower).run tokens with
      | .ok x rest => .ok (.group token [x]) rest
      | .error error rest => .error error rest := by
  simp only [operand, EStateM.run_bind, next_run, List.headD_cons, List.tail_cons, isMinus,
    Lexeme.isAtom, Bool.false_eq_true, ↓reduceIte]
  cases (nested Operator.negationPower).run tokens <;> rfl

theorem operand_run_other (noAtom : token.lexeme.isAtom = false)
    (noParen : token.lexeme ≠ .symbol .leftParen) (noMinus : token.lexeme ≠ .symbol .minus) :
    (operand nested).run (token :: tokens) = .error (fault token (.unexpected token)) tokens := by
  simp only [operand, EStateM.run_bind, next_run, List.headD_cons, List.tail_cons, noAtom,
    Bool.false_eq_true, ↓reduceIte]
  rfl

theorem extend_run_stop (stops : Stops power tokens) :
    (extend nested power rounds left).run tokens = .ok left tokens := by
  cases rounds with
  | zero => rfl
  | succ rounds =>
    simp only [extend, EStateM.run_bind, peek_run]
    cases tokens with
    | nil => rfl
    | cons token tokens =>
      obtain ⟨noParen, noAtom, binds⟩ := stops token rfl
      cases spelled : Operator.ofLexeme? token.lexeme with
      | none => simp [noParen, noAtom, spelled]
      | some operator => simp [noParen, noAtom, spelled, binds operator spelled]

theorem extend_run_parens (opens : token.lexeme = .symbol .leftParen) :
    (extend nested power (rounds + 1) left).run (token :: tokens) =
      .error (fault token (.missingOperator token)) (token :: tokens) := by
  simp [extend, opens]

theorem extend_run_atom (isAtom : token.lexeme.isAtom) :
    (extend nested power (rounds + 1) left).run (token :: tokens) =
      .error (fault token (.unexpected token)) (token :: tokens) := by
  have noParen : token.lexeme ≠ .symbol .leftParen := by
    intro opens
    simp [opens, Lexeme.isAtom] at isAtom
  simp [extend, noParen, isAtom]

theorem extend_run_step (spelled : Operator.ofLexeme? sign.lexeme = some operator)
    (binds : power ≤ operator.leftPower) :
    (extend nested power (rounds + 1) left).run (sign :: tokens) =
      match (nested operator.rightPower).run tokens with
      | .ok right rest => (extend nested power rounds (.group sign [left, right])).run rest
      | .error error rest => .error error rest := by
  have stops : Stops (operator.leftPower + 1) (sign :: tokens) :=
    stops_operator spelled (Nat.lt_succ_self _)
  obtain ⟨noParen, noAtom, -⟩ := stops sign rfl
  simp only [extend, EStateM.run_bind, peek_run, List.headD_cons, noParen, noAtom, spelled,
    Bool.false_eq_true, ↓reduceIte, Nat.not_lt.mpr binds, next_run, List.tail_cons]
  cases (nested operator.rightPower).run tokens <;> rfl

theorem expression_run_succ :
    (expression limit (levels + 1) power).run tokens =
      match (operand (expression limit levels)).run tokens with
      | .ok left rest => (extend (expression limit levels) power rest.length left).run rest
      | .error error rest => .error error rest := by
  simp only [expression, EStateM.run_bind]
  cases (operand (expression limit levels)).run tokens <;> rfl

end Parser

/-- What a parser with a number of levels makes of a phrase: its tree if the levels are enough, and
otherwise the failure for the limit that they stand for. -/
def Phrase.Outcome (limit : Int) (levels : Nat) (whole : Phrase) (rest : List Token)
    (result : Result ParseError (List Token) Expr) : Prop :=
  if whole.depth ≤ levels then result = .ok whole.tree rest
  else ∃ unread, result = .error (.tooDeep limit) unread

namespace Phrase

variable {limit : Int} {levels : Nat} {whole : Phrase} {rest : List Token}
variable {result : Result ParseError (List Token) Expr}

theorem outcome_ok (fits : whole.depth ≤ levels) :
    Outcome limit levels whole rest result ↔ result = .ok whole.tree rest := by
  rw [Outcome, if_pos fits]

theorem outcome_error (deep : levels < whole.depth) :
    Outcome limit levels whole rest result ↔
      ∃ unread, result = .error (.tooDeep limit) unread := by
  rw [Outcome, if_neg (Nat.not_le.mpr deep)]

/-- A phrase is read only if its parts are, and one that is too deep for the levels left makes the
whole too deep for all of them. -/
theorem outcome_cases {part : Phrase} {following : List Token}
    (outcome : Outcome limit levels part following result) (inside : 1 + part.depth ≤ whole.depth) :
    (part.depth ≤ levels ∧ result = .ok part.tree following) ∨
    ∃ unread, result = .error (.tooDeep limit) unread ∧
      Outcome limit (levels + 1) whole rest (.error (.tooDeep limit) unread) := by
  by_cases fits : part.depth ≤ levels
  · exact .inl ⟨fits, (outcome_ok fits).mp outcome⟩
  · obtain ⟨unread, failed⟩ := (outcome_error (Nat.not_le.mp fits)).mp outcome
    exact .inr ⟨unread, failed, (outcome_error (by omega)).mpr ⟨unread, rfl⟩⟩

end Phrase

namespace Reads

variable {power : Nat} {tokens rest : List Token} {left : Option Phrase} {whole : Phrase}

/-- A parser at work does what reading says, as far as its levels reach. -/
theorem outcome (reads : Reads power left tokens whole rest) (limit : Int) (levels : Nat) :
    match left with
    | none => whole.Outcome limit levels rest ((Parser.expression limit levels power).run tokens)
    | some left => ∀ rounds, tokens.length ≤ rounds → left.depth ≤ levels + 1 →
        whole.Outcome limit (levels + 1) rest
          ((Parser.extend (Parser.expression limit levels) power rounds left.tree).run tokens) := by
  -- nested expressions have one level fewer, and what extends an operand has as many
  induction reads generalizing levels with
  | @atom power token tokens rest whole isAtom extended ih =>
    cases levels with
    | zero => exact (Phrase.outcome_error whole.depth_pos).mpr ⟨_, rfl⟩
    | succ levels =>
      rw [Parser.expression_run_succ, Parser.operand_run_atom isAtom]
      exact ih levels tokens.length (Nat.le_refl _) (by simp [Phrase.depth])
  | @negation power sign tokens following rest operand whole isMinus nested extended ihNested ih =>
    cases levels with
    | zero => exact (Phrase.outcome_error whole.depth_pos).mpr ⟨_, rfl⟩
    | succ levels =>
      rw [Parser.expression_run_succ, Parser.operand_run_minus isMinus]
      rcases Phrase.outcome_cases (ihNested levels) extended.depth_le with
        ⟨fits, done⟩ | ⟨unread, failed, outcome⟩
      · rw [done]
        exact ih levels following.length (Nat.le_refl _) (by simp only [Phrase.depth]; omega)
      · rw [failed]
        exact outcome
  | @parens power opening closing tokens following rest inner whole opens nested closes extended
      ihNested ih =>
    cases levels with
    | zero => exact (Phrase.outcome_error whole.depth_pos).mpr ⟨_, rfl⟩
    | succ levels =>
      rw [Parser.expression_run_succ, Parser.operand_run_parens opens]
      rcases Phrase.outcome_cases (ihNested levels) extended.depth_le with
        ⟨fits, done⟩ | ⟨unread, failed, outcome⟩
      · rw [done]
        simp only [closes, ↓reduceIte]
        exact ih levels following.length (Nat.le_refl _) (by simp only [Phrase.depth]; omega)
      · rw [failed]
        exact outcome
  | @stop power tokens left stops =>
    intro rounds _ fits
    rw [Parser.extend_run_stop stops]
    exact (Phrase.outcome_ok fits).mpr rfl
  | @step power operator sign tokens following rest left right whole spelled binds nested extended
      ihNested ih =>
    intro rounds enough fits
    cases rounds with
    | zero => cases enough
    | succ rounds =>
      rw [Parser.extend_run_step spelled binds]
      have inside : 1 + right.depth ≤ whole.depth :=
        Nat.le_trans (Nat.le_max_right _ _) extended.depth_le
      rcases Phrase.outcome_cases (ihNested levels) inside with
        ⟨fitsRight, done⟩ | ⟨unread, failed, outcome⟩
      · rw [done]
        have shorter := nested.length_le
        rw [List.length_cons] at enough
        exact ih levels rounds (by omega) (by simp only [Phrase.depth]; omega)
      · rw [failed]
        exact outcome

end Reads

namespace Parser

variable {limit : Int} {levels power : Nat} {tokens rest : List Token} {tree : Expr}

/-- Success of a parser for nested expressions is owed to a phrase. -/
def Sound (nested : Nat → Parser Expr) : Prop :=
  ∀ power tokens tree rest, (nested power).run tokens = .ok tree rest →
    ∃ whole, Reads power none tokens whole rest ∧ whole.tree = tree

variable {nested : Nat → Parser Expr}

/-- A parser that goes on with what another has read succeeds only if that one does. -/
theorem ok_of_match {result : Result ParseError (List Token) Expr}
    {next : Expr → List Token → Result ParseError (List Token) Expr}
    (success : (match result with
      | .ok read following => next read following
      | .error error following => .error error following) = .ok tree rest) :
    ∃ read following, result = .ok read following ∧ next read following = .ok tree rest := by
  cases result with
  | ok read following => exact ⟨read, following, rfl, success⟩
  | error => cases success

theorem extend_sound (sound : Sound nested) (rounds : Nat) (left : Phrase)
    (enough : tokens.length ≤ rounds)
    (success : (extend nested power rounds left.tree).run tokens = .ok tree rest) :
    ∃ whole, Reads power (some left) tokens whole rest ∧ whole.tree = tree := by
  -- a round takes at least its sign, so the rounds that are left are enough for what is left to read
  induction rounds generalizing tokens left with
  | zero =>
    obtain rfl := List.length_eq_zero_iff.mp (Nat.le_zero.mp enough)
    cases success
    exact ⟨left, .stop stops_nil, rfl⟩
  | succ rounds ih =>
    cases tokens with
    | nil =>
      rw [extend_run_stop stops_nil] at success
      cases success
      exact ⟨left, .stop stops_nil, rfl⟩
    | cons sign tokens =>
      rcases stops_or_goesOn power sign tokens with
        stops | opens | isAtom | ⟨operator, spelled, binds⟩
      · rw [extend_run_stop stops] at success
        cases success
        exact ⟨left, .stop stops, rfl⟩
      · rw [extend_run_parens opens] at success
        cases success
      · rw [extend_run_atom isAtom] at success
        cases success
      · rw [extend_run_step spelled binds] at success
        obtain ⟨right, following, done, success⟩ := ok_of_match success
        obtain ⟨rightPhrase, readsRight, rfl⟩ := sound _ _ _ _ done
        have shorter := readsRight.length_le
        rw [List.length_cons] at enough
        obtain ⟨whole, extended, sameTree⟩ :=
          ih (.infixed left sign rightPhrase) (by omega) success
        exact ⟨whole, .step spelled binds readsRight extended, sameTree⟩

theorem operand_sound (sound : Sound nested) {left : Expr} {following : List Token}
    (success : (operand nested).run tokens = .ok left following) :
    ∃ phrase : Phrase, phrase.tree = left ∧ ∀ power whole rest,
      Reads power (some phrase) following whole rest → Reads power none tokens whole rest := by
  cases tokens with
  | nil => cases success
  | cons token tokens =>
    by_cases isAtom : token.lexeme.isAtom
    · rw [operand_run_atom isAtom] at success
      cases success
      exact ⟨.atom token, rfl, fun _ _ _ => .atom isAtom⟩
    by_cases opens : token.lexeme = .symbol .leftParen
    · rw [operand_run_parens opens] at success
      cases done : (nested 0).run tokens with
      | error error unread =>
        rw [done] at success
        cases success
      | ok inner unread =>
        rw [done] at success
        obtain ⟨innerPhrase, readsInner, rfl⟩ := sound _ _ _ _ done
        cases unread with
        | nil => cases success
        | cons closing unread =>
          dsimp only at success
          by_cases closes : closing.lexeme = .symbol .rightParen
          · rw [if_pos closes] at success
            cases success
            exact ⟨.parens token innerPhrase closing, rfl,
              fun _ _ _ => .parens opens readsInner closes⟩
          · rw [if_neg closes] at success
            cases success
    by_cases isMinus : token.lexeme = .symbol .minus
    · rw [operand_run_minus isMinus] at success
      obtain ⟨operand, unread, done, success⟩ := ok_of_match success
      cases success
      obtain ⟨operandPhrase, readsOperand, rfl⟩ := sound _ _ _ _ done
      exact ⟨.negation token operandPhrase, rfl, fun _ _ _ => .negation isMinus readsOperand⟩
    · rw [operand_run_other (Bool.eq_false_iff.mpr isAtom) opens isMinus] at success
      cases success

theorem expression_sound (limit : Int) (levels : Nat) : Sound (expression limit levels) := by
  induction levels with
  | zero =>
    intro power tokens tree rest success
    cases success
  | succ levels ih =>
    intro power tokens tree rest success
    rw [expression_run_succ] at success
    obtain ⟨left, following, done, success⟩ := ok_of_match success
    obtain ⟨phrase, rfl, goesOn⟩ := operand_sound ih done
    obtain ⟨whole, extended, sameTree⟩ :=
      extend_sound ih following.length phrase (Nat.le_refl _) success
    exact ⟨whole, goesOn _ _ _ extended, sameTree⟩

theorem expression_run_eq_ok_iff :
    (expression limit levels power).run tokens = .ok tree rest ↔
      ∃ whole, Reads power none tokens whole rest ∧ whole.tree = tree ∧ whole.depth ≤ levels := by
  constructor
  · intro success
    obtain ⟨whole, reads, sameTree⟩ := expression_sound limit levels _ _ _ _ success
    refine ⟨whole, reads, sameTree, Nat.not_lt.mp fun deep => ?_⟩
    obtain ⟨unread, failure⟩ := (Phrase.outcome_error deep).mp (reads.outcome limit levels)
    rw [success] at failure
    cases failure
  · rintro ⟨whole, reads, rfl, fits⟩
    exact (Phrase.outcome_ok fits).mp (reads.outcome limit levels)

theorem whole_run :
    (whole limit).run tokens =
      match (expression limit limit.toNat 0).run tokens with
      | .ok tree rest =>
        let trailing := rest.headD .endOfInput
        if trailing.lexeme = .symbol .endOfInput then .ok tree rest
        else if trailing.lexeme = .symbol .rightParen then
          .error (fault trailing (.unmatched trailing)) rest
        else .error (fault trailing (.unexpected trailing)) rest
      | .error error rest => .error error rest := by
  simp only [whole, EStateM.run_bind]
  cases (expression limit limit.toNat 0).run tokens with
  | error => rfl
  | ok tree rest =>
    simp only [peek_run]
    split
    case h_1 ends => rw [if_pos ends]; rfl
    case h_2 closes => rw [closes, if_neg (by decide), if_pos rfl]; rfl
    case h_3 noEnd noClosing => rw [if_neg noEnd, if_neg noClosing]; rfl

end Parser

namespace Expr

variable {limit : Int} {tokens : List Token} {tree : Expr}

theorem ofTokens_eq_ok_iff : (ofTokens limit tokens).1 = .ok tree ↔
    ∃ whole rest, Reads 0 none tokens whole rest ∧ whole.tree = tree ∧
      whole.depth ≤ limit.toNat ∧ (rest.headD .endOfInput).lexeme = .symbol .endOfInput := by
  have inverted : (ofTokens limit tokens).1 = .ok tree ↔
      ∃ rest, (Parser.whole limit).run tokens = .ok tree rest := by
    rw [ofTokens]
    cases (Parser.whole limit).run tokens <;> simp
  rw [inverted, Parser.whole_run]
  constructor
  · rintro ⟨rest, success⟩
    obtain ⟨inner, unread, done, success⟩ := Parser.ok_of_match success
    dsimp only at success
    split at success
    case isTrue ends =>
      cases success
      obtain ⟨whole, reads, sameTree, fits⟩ := Parser.expression_run_eq_ok_iff.mp done
      exact ⟨whole, rest, reads, sameTree, fits, ends⟩
    case isFalse => split at success <;> cases success
  · rintro ⟨whole, rest, reads, sameTree, fits, ends⟩
    have done : (Parser.expression limit limit.toNat 0).run tokens = .ok tree rest :=
      Parser.expression_run_eq_ok_iff.mpr ⟨whole, reads, sameTree, fits⟩
    exact ⟨rest, by simp only [done, ends, ↓reduceIte]⟩

theorem ofTokens_tooDeep {whole : Phrase} {rest : List Token}
    (reads : Reads 0 none tokens whole rest) (deep : limit.toNat < whole.depth) :
    (ofTokens limit tokens).1 = .error (.tooDeep limit) := by
  obtain ⟨unread, failure⟩ := (Phrase.outcome_error deep).mp (reads.outcome limit limit.toNat)
  rw [ofTokens, Parser.whole_run, failure]

theorem ofTokens_derivation (limit : Int) (derivation : Derivation .sum) (offset : Option Nat) :
    ((derivation.depth : Int) ≤ limit →
      (ofTokens limit (derivation.yield ++ [⟨.symbol .endOfInput, offset⟩])).1 =
        .ok derivation.tree) ∧
    (limit < derivation.depth →
      (ofTokens limit (derivation.yield ++ [⟨.symbol .endOfInput, offset⟩])).1 =
        .error (.tooDeep limit)) := by
  have reads : Reads 0 none (derivation.yield ++ [⟨.symbol .endOfInput, offset⟩])
      derivation.phrase [⟨.symbol .endOfInput, offset⟩] :=
    reads_iff_derivation.mpr ⟨stops_end rfl, derivation, rfl, rfl⟩
  have positive := derivation.phrase.depth_pos
  simp only [Derivation.depth]
  constructor
  · intro fits
    exact ofTokens_eq_ok_iff.mpr ⟨_, _, reads, rfl, by omega, rfl⟩
  · intro deep
    exact ofTokens_tooDeep reads (by omega)

/-- What is read up to the end of input is all that stands before it. -/
theorem eq_yield_of_ends {front rest : List Token} {offset : Option Nat}
    (inner : ∀ token ∈ tokens, token.lexeme ≠ .symbol .endOfInput)
    (innerFront : ∀ token ∈ front, token.lexeme ≠ .symbol .endOfInput)
    (ends : (rest.headD .endOfInput).lexeme = .symbol .endOfInput)
    (same : tokens ++ [⟨.symbol .endOfInput, offset⟩] = front ++ rest) : tokens = front := by
  induction tokens generalizing front with
  | nil =>
    cases front with
    | nil => rfl
    | cons token front =>
      obtain ⟨rfl, -⟩ := List.cons.inj same
      exact absurd rfl (innerFront _ List.mem_cons_self)
  | cons token tokens ih =>
    cases front with
    | nil =>
      subst same
      exact absurd ends (inner token List.mem_cons_self)
    | cons token' front =>
      obtain ⟨rfl, same'⟩ := List.cons.inj same
      rw [ih (fun token member => inner token (List.mem_cons_of_mem _ member))
        (fun token member => innerFront token (List.mem_cons_of_mem _ member)) same']

/-- The parser accepts exactly the grammar, with the tree and the depth of the one derivation. -/
theorem ofTokens_eq_ok_iff_derivation (limit : Int) (tokens : List Token) (offset : Option Nat)
    (inner : ∀ token ∈ tokens, token.lexeme ≠ .symbol .endOfInput) :
    (∀ tree, (ofTokens limit (tokens ++ [⟨.symbol .endOfInput, offset⟩])).1 = .ok tree ↔
      ∃ derivation : Derivation .sum,
        derivation.yield = tokens ∧ derivation.tree = tree ∧ (derivation.depth : Int) ≤ limit) ∧
    ∀ a b : Derivation .sum, a.yield = tokens → b.yield = tokens → a = b := by
  constructor
  · intro tree
    rw [ofTokens_eq_ok_iff]
    constructor
    · rintro ⟨whole, rest, reads, rfl, fits, ends⟩
      obtain ⟨-, derivation, rfl, same⟩ := reads_iff_derivation.mp reads
      have yields := eq_yield_of_ends inner derivation.yield_inner ends same
      have positive := derivation.phrase.depth_pos
      refine ⟨derivation, yields.symm, rfl, ?_⟩
      simp only [Derivation.depth]
      omega
    · rintro ⟨derivation, rfl, rfl, fits⟩
      exact ofTokens_eq_ok_iff.mp ((ofTokens_derivation limit derivation offset).1 fits)
  · intro a b yieldsA yieldsB
    exact Derivation.yield_injective (yieldsA.trans yieldsB.symm)

/-- `1 - 2 ^ (3)` nests four levels deep. -/
theorem exists_derivation_of_difference :
    let one : Token := ⟨.number ⟨"1", ""⟩, some 0⟩
    let two : Token := ⟨.number ⟨"2", ""⟩, some 2⟩
    let three : Token := ⟨.number ⟨"3", ""⟩, some 5⟩
    let minus : Token := ⟨.symbol .minus, some 1⟩
    let caret : Token := ⟨.symbol .caret, some 3⟩
    let tokens := [one, minus, two, caret, ⟨.symbol .leftParen, some 4⟩, three,
      ⟨.symbol .rightParen, some 6⟩]
    (∀ token ∈ tokens, token.lexeme ≠ .symbol .endOfInput) ∧
    ∃ derivation : Derivation .sum, derivation.yield = tokens ∧
      derivation.tree = .group minus [.atom one, .group caret [.atom two, .atom three]] ∧
      (derivation.depth : Int) ≤ 4 := by
  refine ⟨by decide, ?_⟩
  exact ((ofTokens_eq_ok_iff_derivation 4 _ (some 7) (by decide)).1 _).mp rfl

end Expr
end Uncertainty

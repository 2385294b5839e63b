import Uncertainty.Proofs.Binary64.Arithmetic
import Uncertainty.Proofs.Evaluation.Meaning
import Uncertainty.Proofs.Literal.Value

/-!
The meaning of well-formed trees, one equation for each form of tree: an atom, a negation or an
infixed operator. The only error that such a tree can come to is that an operation is undefined for
its operands.
-/
namespace Uncertainty

section MapError

variable {α ε ε' : Type} {result : Except ε α} {wrap : ε → ε'} {value : α} {error : ε'}

theorem mapError_ok : result.mapError wrap = .ok value ↔ result = .ok value := by
  cases result with
  | error => exact ⟨nofun, nofun⟩
  | ok => exact ⟨fun same => by cases same; rfl, fun same => by cases same; rfl⟩

theorem mapError_error :
    result.mapError wrap = .error error ↔ ∃ inner, result = .error inner ∧ error = wrap inner := by
  cases result with
  | error inner =>
    constructor
    · intro same
      cases same
      exact ⟨inner, rfl, rfl⟩
    · rintro ⟨_, ⟨⟩, rfl⟩
      rfl
  | ok => exact ⟨nofun, nofun⟩

end MapError

namespace Token

variable {token : Token} {operands : List Value} {value : Value}

theorem binary_ok (combined : token.binary operands = .ok value) :
    ∃ operator x y, Operator.ofLexeme? token.lexeme = some operator ∧ operands = [x, y] ∧
      operator.apply x y = .ok value := by
  cases isOperator : Operator.ofLexeme? token.lexeme with
  | none => simp [binary, Token.operator, isOperator, bind, Except.bind] at combined
  | some operator =>
    simp only [binary, Token.operator, isOperator, bind, Except.bind] at combined
    split at combined
    case h_1 x y => exact ⟨operator, x, y, rfl, rfl, mapError_ok.mp combined⟩
    case h_2 => cases combined

/-- What the value of a group has been made of, whatever token stands as its operator. -/
theorem combine_ok (combined : token.combine operands = .ok value) :
    (∃ x, operands = [x] ∧ value = x.negate) ∨
    ∃ operator x y, Operator.ofLexeme? token.lexeme = some operator ∧ operands = [x, y] ∧
      operator.apply x y = .ok value := by
  unfold combine at combined
  split at combined
  case h_1 x =>
    split at combined
    case isTrue =>
      cases combined
      exact .inl ⟨x, rfl, rfl⟩
    case isFalse => exact .inr (binary_ok combined)
  case h_2 => exact .inr (binary_ok combined)

end Token

namespace Expr

variable {token sign : Token} {operator : Operator} {tree operand left right : Expr}
variable {work : List Task} {task : Task} {value : Value} {values : List Value}
variable {error : EvaluationError}

/-- Evaluation computes the meaning. -/
theorem evaluate_computes (tree : Expr) : tree.evaluate = tree.meaning := by
  rw [evaluate, Task.run_evaluate]
  cases tree.meaning with
  | error error => rfl
  | ok value =>
    rw [Except.bind, Task.run_nil]
    rfl

theorem reaches_of_meaning (valued : tree.meaning = .ok value) : Task.Reaches tree [] [value] := by
  rw [← Task.run_eq_ok_iff, Task.run_evaluate, valued]
  exact Task.run_nil

/-- Induction over the forms of well-formed trees, for what holds of all atoms alike. -/
@[elab_as_elim] theorem WellFormed.byForm {motive : ∀ tree : Expr, tree.WellFormed → Prop}
    (atom : ∀ (token : Token) (formed : WellFormed (.atom token)), motive (.atom token) formed)
    (negation : ∀ (sign : Token) (operand : Expr) (isMinus : sign.lexeme = .symbol .minus)
      (formed : operand.WellFormed), motive operand formed →
      motive (.group sign [operand]) (.negation isMinus formed))
    (infixed : ∀ (sign : Token) (operator : Operator) (left right : Expr)
      (isOperator : Operator.ofLexeme? sign.lexeme = some operator) (leftFormed : left.WellFormed)
      (rightFormed : right.WellFormed), motive left leftFormed → motive right rightFormed →
      motive (.group sign [left, right]) (.infixed isOperator leftFormed rightFormed))
    {tree : Expr} (formed : tree.WellFormed) : motive tree formed := by
  induction formed with
  | constant isConstant => exact atom _ (.constant isConstant)
  | number spelled isDecimal => exact atom _ (.number spelled isDecimal)
  | negation isMinus formed ih => exact negation _ _ isMinus formed ih
  | infixed isOperator leftFormed rightFormed ihLeft ihRight =>
    exact infixed _ _ _ _ isOperator leftFormed rightFormed ihLeft ihRight

theorem WellFormed.of_mem {operands : List Expr} (formed : WellFormed (.group sign operands))
    (member : operand ∈ operands) : operand.WellFormed := by
  cases formed with
  | negation _ operandFormed =>
    obtain rfl := List.mem_singleton.mp member
    exact operandFormed
  | infixed _ leftFormed rightFormed =>
    rcases List.mem_cons.mp member with rfl | member
    · exact leftFormed
    · obtain rfl := List.mem_singleton.mp member
      exact rightFormed

theorem WellFormed.value_eq (formed : WellFormed (.atom token)) :
    ∃ x : Binary64, x.SignClear ∧ token.value = .ok (.positive x) := by
  cases formed with
  | constant isConstant =>
    rcases isConstant with isEuler | isPi
    · refine ⟨Token.eulerNumber, Binary64.isNegative_ofRank .., ?_⟩
      rw [Token.value, isEuler]
    · refine ⟨Token.circleNumber, Binary64.isNegative_ofRank .., ?_⟩
      rw [Token.value, isPi]
  | @number _ literal spelled isDecimal =>
    obtain ⟨x, clear, read⟩ : ∃ x : Binary64, x.SignClear ∧ literal.value = some x :=
      ⟨_, Binary64.isNegative_ofDecimal .., isDecimal.value_eq⟩
    rw [Literal.value] at read
    refine ⟨x, clear, ?_⟩
    rw [Token.value, spelled]
    simp only [Token.numberValue, read]

theorem WellFormed.atom_ne_error (formed : WellFormed (.atom token)) :
    (atom token).meaning ≠ .error error := by
  obtain ⟨x, -, read⟩ := formed.value_eq
  rw [meaning, read]
  nofun

theorem meaning_negation (isMinus : sign.lexeme = .symbol .minus) :
    (group sign [operand]).meaning = operand.meaning.map Value.negate := by
  rw [meaning, meanings, meanings]
  cases operand.meaning with
  | error error => rfl
  | ok value =>
    change sign.combine [value] = _
    rw [Token.combine, if_pos isMinus]
    rfl

theorem meaning_infixed (isOperator : Operator.ofLexeme? sign.lexeme = some operator) :
    (group sign [left, right]).meaning = left.meaning.bind fun x => right.meaning.bind fun y =>
      (operator.apply x y).mapError .undefined := by
  rw [meaning, meanings, meanings, meanings]
  cases left.meaning with
  | error error => rfl
  | ok x =>
    cases right.meaning with
    | error error => rfl
    | ok y =>
      change sign.combine [x, y] = (operator.apply x y).mapError .undefined
      rw [Token.combine, Token.binary, Token.operator, isOperator]
      · rfl
      · nofun

theorem meaning_negation_ok (isMinus : sign.lexeme = .symbol .minus) :
    (group sign [operand]).meaning = .ok value ↔
      ∃ x, operand.meaning = .ok x ∧ x.negate = value := by
  rw [meaning_negation isMinus]
  cases operand.meaning <;> simp [Except.map]

theorem meaning_negation_error (isMinus : sign.lexeme = .symbol .minus) :
    (group sign [operand]).meaning = .error error ↔ operand.meaning = .error error := by
  rw [meaning_negation isMinus]
  cases operand.meaning <;> simp [Except.map]

theorem meaning_infixed_ok (isOperator : Operator.ofLexeme? sign.lexeme = some operator) :
    (group sign [left, right]).meaning = .ok value ↔ ∃ x y,
      left.meaning = .ok x ∧ right.meaning = .ok y ∧ operator.apply x y = .ok value := by
  rw [meaning_infixed isOperator]
  cases left.meaning with
  | error => simp [Except.bind]
  | ok x =>
    cases right.meaning with
    | error => simp [Except.bind]
    | ok y => simp [Except.bind, mapError_ok]

/-- An error comes from the left operand, from the right one or from the operation. -/
theorem meaning_infixed_error (isOperator : Operator.ofLexeme? sign.lexeme = some operator) :
    (group sign [left, right]).meaning = .error error ↔
      left.meaning = .error error ∨
      (∃ x, left.meaning = .ok x ∧ right.meaning = .error error) ∨
      ∃ x y undefined, left.meaning = .ok x ∧ right.meaning = .ok y ∧
        operator.apply x y = .error undefined ∧ error = .undefined undefined := by
  rw [meaning_infixed isOperator]
  cases left.meaning with
  | error => simp [Except.bind]
  | ok x =>
    cases right.meaning with
    | error => simp [Except.bind]
    | ok y => simp [Except.bind, mapError_error]

theorem WellFormed.error_undefined (formed : tree.WellFormed)
    (failed : tree.meaning = .error error) : ∃ undefined, error = .undefined undefined := by
  induction formed using byForm with
  | atom token formed => exact absurd failed formed.atom_ne_error
  | negation _ _ isMinus _ ih => exact ih ((meaning_negation_error isMinus).mp failed)
  | infixed _ _ _ _ isOperator _ _ ihLeft ihRight =>
    rcases (meaning_infixed_error isOperator).mp failed with
      failed | ⟨x, -, failed⟩ | ⟨x, y, undefined, -, -, -, rfl⟩
    · exact ihLeft failed
    · exact ihRight failed
    · exact ⟨undefined, rfl⟩

/-- Wherever the evaluation of a well-formed tree fails, an operation is undefined. -/
theorem WellFormed.step_undefined (formed : tree.WellFormed)
    (reached : Task.Reaches tree (task :: work) values) (failed : task.step values = .error error) :
    ∃ undefined, error = .undefined undefined := by
  have stuck : Task.run (task :: work) values = .error error := by
    rw [Task.run_cons, failed]
    rfl
  rw [← reached.run_eq] at stuck
  cases valued : tree.meaning with
  | error error' =>
    rw [Task.run_evaluate, valued] at stuck
    cases stuck
    exact formed.error_undefined valued
  | ok value =>
    rw [Task.run_eq_ok_iff.mpr (reaches_of_meaning valued)] at stuck
    cases stuck

end Expr
end Uncertainty

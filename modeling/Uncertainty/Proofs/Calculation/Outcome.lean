import Uncertainty.CommandLine
import Uncertainty.Proofs.Evaluation.WellFormed
import Uncertainty.Proofs.Expr.WellFormed

/-!
What the calculation of a text can end in: a value or a failure that the text itself is to blame
for. No stage hands on what the next one cannot deal with, so that the command line has either a
result to show or such a failure.
-/
namespace Uncertainty

/-- The failures that are the fault of a text: of its characters, of their order, of its depth, or
of an operation that is undefined for its operands. -/
inductive Failure.Regular (limit : Int) : Failure → Prop where
  | characters (error : LexicalError) : Regular limit (.lexical error)
  | order (error : SyntaxError) : Regular limit (.parsing (.malformed error))
  | depth : Regular limit (.parsing (.tooDeep limit))
  | domain (error : DomainError) : Regular limit (.evaluation (.undefined error))

variable {limit : Int} {text : String} {failure : Failure}

theorem Value.ofText_cases (limit : Int) (text : String) :
    (∃ value, ofText limit text = .ok value) ∨
    ∃ failure, ofText limit text = .error failure ∧ failure.Regular limit := by
  rw [ofText]
  rcases Expr.ofText_cases limit text with
    ⟨tree, read, formed⟩ | ⟨error, failed⟩ | ⟨disorder, failed⟩ | failed
  · rw [read]
    change (∃ value, tree.evaluate.mapError _ = _) ∨ ∃ failure, tree.evaluate.mapError _ = _ ∧ _
    rw [Expr.evaluate_computes]
    cases valued : tree.meaning with
    | ok value => exact .inl ⟨value, rfl⟩
    | error error =>
      obtain ⟨undefined, rfl⟩ := formed.error_undefined valued
      exact .inr ⟨_, rfl, .domain undefined⟩
  · rw [failed]
    exact .inr ⟨_, rfl, .characters error⟩
  · rw [failed]
    exact .inr ⟨_, rfl, .order disorder⟩
  · rw [failed]
    exact .inr ⟨_, rfl, .depth⟩

theorem calculate_cases (text : String) :
    (∃ result, calculate text = .ok result) ∨
    ∃ failure, calculate text = .error failure ∧ failure.Regular Expr.defaultDepth := by
  rw [calculate]
  rcases Value.ofText_cases Expr.defaultDepth text with ⟨value, done⟩ | ⟨failure, failed, regular⟩
  · rw [done]
    exact .inl ⟨_, rfl⟩
  · rw [failed]
    exact .inr ⟨failure, rfl, regular⟩

namespace CommandLine

/-- Behind a separator every text is an expression. -/
theorem run_separated (text : String) : run ["--", text] = (Request.calculate text).outcome := by
  rw [run, classifyAll, if_pos rfl]
  rfl

theorem outcome_ok {result : String} (done : calculate text = .ok result) :
    (Request.calculate text).outcome = ⟨0, false, result ++ "\n", ""⟩ := by
  simp only [Request.outcome, done]

theorem outcome_error (failed : calculate text = .error failure) :
    ∃ errors, (Request.calculate text).outcome = ⟨1, false, "", errors⟩ := by
  simp only [Request.outcome, failed]
  exact ⟨_, rfl⟩

end CommandLine

/-- Every text ends in a value or in a failure of its own. Once it has been read, only an operation
can fail, wherever the evaluation has come to; and the command line shows the result or none. -/
theorem Value.ofText_regular (limit : Int) (text : String) :
    ((∃ value, ofText limit text = .ok value) ∨
      ∃ failure, ofText limit text = .error failure ∧ failure.Regular limit) ∧
    (∀ tree, Expr.ofText limit text = .ok tree →
      (∀ error, tree.evaluate = .error error → ∃ undefined, error = .undefined undefined) ∧
      ∀ task work values error, Task.Reaches tree (task :: work) values →
        task.step values = .error error → ∃ undefined, error = .undefined undefined) ∧
    ((∃ result, calculate text = .ok result ∧
        CommandLine.run ["--", text] = ⟨0, false, result ++ "\n", ""⟩) ∨
      ∃ failure errors, calculate text = .error failure ∧ failure.Regular Expr.defaultDepth ∧
        CommandLine.run ["--", text] = ⟨1, false, "", errors⟩) := by
  refine ⟨ofText_cases limit text, fun tree read => ⟨fun error failed => ?_, ?_⟩, ?_⟩
  · rw [Expr.evaluate_computes] at failed
    exact (Expr.wellFormed_of_ofText read).error_undefined failed
  · intro task work values error reached failed
    exact (Expr.wellFormed_of_ofText read).step_undefined reached failed
  · rw [CommandLine.run_separated]
    rcases calculate_cases text with ⟨result, done⟩ | ⟨failure, failed, regular⟩
    · exact .inl ⟨result, done, CommandLine.outcome_ok done⟩
    · obtain ⟨errors, shown⟩ := CommandLine.outcome_error failed
      exact .inr ⟨failure, errors, failed, regular, shown⟩

end Uncertainty

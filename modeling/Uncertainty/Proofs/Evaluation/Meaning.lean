import Uncertainty.Evaluation

/-!
The meaning of a tree by recursion on its structure, and the evaluation with a stack of pending work
as a way to compute it. The stack always holds as many values as the next operator takes, and what
remains at the end is one value.
-/
namespace Uncertainty

namespace Token

/-- The operator that a token stands for; another token is at fault, or its lack of a text is. -/
def operator (token : Token) : Except EvaluationError Operator :=
  match Operator.ofLexeme? token.lexeme with
  | some operator => .ok operator
  | none => .error (token.lexeme.textless?.elim (.notOperator token) .textless)

/-- Applies an operator between two operands; whether it is one is asked before they are counted. -/
def binary (token : Token) (operands : List Value) : Except EvaluationError Value := do
  let operator ← token.operator
  match operands with
  | [x, y] => (operator.apply x y).mapError .undefined
  | _ => .error (.operandCount token operands.length)

def combine (token : Token) (operands : List Value) : Except EvaluationError Value :=
  match operands with
  | [x] => if token.lexeme = .symbol .minus then .ok x.negate else token.binary [x]
  | _ => token.binary operands

theorem applyTo_eq_combine (token : Token) (operands : List Value) :
    token.applyTo operands = token.combine operands := by
  have applied : token.lexeme ≠ .symbol .minus ∨ operands.length ≠ 1 →
      token.applyTo operands = token.binary operands := by
    intro noNegation
    unfold applyTo
    split
    case h_1 isMinus => simp [isMinus] at noNegation
    case h_2 =>
      unfold binary operator
      cases Operator.ofLexeme? token.lexeme with
      | none => cases token.lexeme.textless? <;> rfl
      | some operator => split <;> simp_all [bind, Except.bind]
  unfold combine
  split
  case h_1 x =>
    split
    case isTrue isMinus => simp [applyTo, isMinus]
    case isFalse noMinus => exact applied (.inl noMinus)
  case h_2 noSingle =>
    refine applied (.inr fun single => ?_)
    obtain ⟨x, rfl⟩ := List.length_eq_one_iff.mp single
    exact noSingle x rfl

end Token

namespace Expr

mutual

/-- The value of a tree: its operands from left to right up to the first error, then its operator. -/
def meaning : Expr → Except EvaluationError Value
  | atom token => token.value
  | group operator operands => do operator.combine (← meanings operands)

def meanings : List Expr → Except EvaluationError (List Value)
  | [] => return []
  | x :: xs => return (← meaning x) :: (← meanings xs)

end

mutual

/-- All parts of a tree, each behind its own parts. -/
def postorder : Expr → List Expr
  | atom token => [atom token]
  | group operator operands => postorderAll operands ++ [group operator operands]

def postorderAll : List Expr → List Expr
  | [] => []
  | x :: xs => postorder x ++ postorderAll xs

end

def fault? (tree : Expr) : Option EvaluationError :=
  match tree.meaning with
  | .ok _ => none
  | .error error => some error

variable {trees : List Expr} {values : List Value} {error : EvaluationError}

theorem length_of_meanings (valued : meanings trees = .ok values) :
    values.length = trees.length := by
  induction trees generalizing values with
  | nil =>
    cases valued
    rfl
  | cons x xs ih =>
    unfold meanings at valued
    cases first : meaning x with
    | error error => simp [first, bind, Except.bind] at valued
    | ok value =>
      cases others : meanings xs with
      | error error => simp [first, others, bind, Except.bind] at valued
      | ok rest =>
        simp only [first, others, bind, Except.bind, pure, Except.pure, Except.ok.injEq] at valued
        rw [← valued, List.length_cons, List.length_cons, ih others]

mutual

/-- The first part at fault, in postorder, is the one whose error is the tree's. -/
theorem findSome?_postorder (tree : Expr) : tree.postorder.findSome? fault? = tree.fault? := by
  cases tree with
  | atom token => simp [postorder]
  | group operator operands =>
    rw [postorder, List.findSome?_append, findSome?_postorderAll operands]
    cases valued : meanings operands with
    | ok values => simp
    | error error => simp [fault?, meaning, valued, bind, Except.bind]

theorem findSome?_postorderAll (trees : List Expr) : (postorderAll trees).findSome? fault? =
    match meanings trees with
    | .ok _ => none
    | .error error => some error := by
  cases trees with
  | nil => rfl
  | cons x xs =>
    rw [postorderAll, List.findSome?_append, findSome?_postorder x, findSome?_postorderAll xs,
      meanings, fault?]
    cases meaning x with
    | error error => rfl
    | ok value => cases meanings xs <;> rfl

end

end Expr

namespace Task

variable {task : Task} {work more : List Task} {values left final : List Value} {tree : Expr}

theorem run_nil : run [] values = .ok values := by
  rw [run]

theorem run_cons : run (task :: work) values =
    (task.step values).bind fun (more, left) => run (more ++ work) left := by
  rw [run]
  split
  case h_1 error failed => rw [failed]; rfl
  case h_2 more left done =>
    change run (more ++ work) left = _
    rw [done]
    rfl

theorem operands_on_top {operands : List Expr} {results : List Value}
    (valued : Expr.meanings operands = .ok results) (values : List Value) :
    ((results.reverse ++ values).take operands.length).reverse = results ∧
      (results.reverse ++ values).drop operands.length = values := by
  rw [← Expr.length_of_meanings valued, ← List.length_reverse, List.take_left, List.drop_left,
    List.reverse_reverse]
  exact ⟨rfl, rfl⟩

mutual

theorem run_evaluate (tree : Expr) (work : List Task) (values : List Value) :
    run (.evaluate tree :: work) values =
      tree.meaning.bind fun value => run work (value :: values) := by
  cases tree with
  | atom token =>
    rw [run_cons, step, Expr.meaning]
    cases token.value <;> rfl
  | group operator operands =>
    have operated : run (.evaluate (.group operator operands) :: work) values =
        run (operands.map .evaluate ++ .apply operator operands.length :: work) values := by
      rw [run_cons, step, Except.bind]
      simp only [List.append_assoc, List.singleton_append]
    rw [operated, run_evaluateAll operands, Expr.meaning]
    cases valued : Expr.meanings operands with
    | error error => rfl
    | ok results =>
      obtain ⟨top, below⟩ := operands_on_top valued values
      simp only [bind, Except.bind, run_cons, step, top, below, Token.applyTo_eq_combine]
      cases operator.combine results <;> rfl

theorem run_evaluateAll (trees : List Expr) (work : List Task) (values : List Value) :
    run (trees.map .evaluate ++ work) values =
      (Expr.meanings trees).bind fun results => run work (results.reverse ++ values) := by
  cases trees with
  | nil => rfl
  | cons x xs =>
    rw [List.map_cons, List.cons_append, run_evaluate x, Expr.meanings]
    cases x.meaning with
    | error error => rfl
    | ok value =>
      dsimp only [bind, Except.bind]
      rw [run_evaluateAll xs]
      cases Expr.meanings xs with
      | error error => rfl
      | ok results => simp [Except.bind, pure, Except.pure]

end

/-- The states that the evaluation of a tree goes through: pending work and the values on the stack,
the last of them first. -/
inductive Reaches (tree : Expr) : List Task → List Value → Prop where
  | start : Reaches tree [.evaluate tree] []
  | step {task : Task} {work more : List Task} {values left : List Value}
      (reached : Reaches tree (task :: work) values) (done : task.step values = .ok (more, left)) :
      Reaches tree (more ++ work) left

/-- What `work` needs of a stack of values: enough operands for each operator that it comes to, and
one value at the end. -/
def Serves : List Task → Nat → Prop
  | [], height => height = 1
  | evaluate _ :: work, height => Serves work (height + 1)
  | apply _ count :: work, height => count ≤ height ∧ Serves work (height - count + 1)

theorem serves_evaluate (trees : List Expr) (work : List Task) (height : Nat) :
    Serves (trees.map evaluate ++ work) height ↔ Serves work (height + trees.length) := by
  induction trees generalizing height with
  | nil => rfl
  | cons x xs ih =>
    rw [List.map_cons, List.cons_append, Serves, ih, List.length_cons, Nat.add_right_comm,
      Nat.add_assoc height]

/-- A step takes as much from the stack as the work needs that it does. -/
theorem serves_step (done : task.step values = .ok (more, left))
    (serves : Serves (task :: work) values.length) : Serves (more ++ work) left.length := by
  match task with
  | evaluate (.atom token) =>
    cases valued : token.value with
    | error error => simp [step, valued, bind, Except.bind] at done
    | ok value =>
      simp only [step, valued, bind, Except.bind, pure, Except.pure, Except.ok.injEq,
        Prod.mk.injEq] at done
      obtain ⟨rfl, rfl⟩ := done
      exact serves
  | evaluate (.group operator operands) =>
    simp only [step, Except.ok.injEq, Prod.mk.injEq] at done
    obtain ⟨rfl, rfl⟩ := done
    rw [List.append_assoc, serves_evaluate, List.singleton_append, Serves]
    refine ⟨Nat.le_add_left _ _, ?_⟩
    rwa [Nat.add_sub_cancel]
  | apply operator count =>
    cases applied : operator.applyTo (values.take count).reverse with
    | error error => simp [step, applied, bind, Except.bind] at done
    | ok value =>
      simp only [step, applied, bind, Except.bind, pure, Except.pure, Except.ok.injEq,
        Prod.mk.injEq] at done
      obtain ⟨rfl, rfl⟩ := done
      rw [List.nil_append, List.length_cons, List.length_drop]
      exact serves.2

theorem Reaches.serves (reached : Reaches tree work values) : Serves work values.length := by
  induction reached with
  | start => rfl
  | step _ done ih => exact serves_step done ih

/-- From every state that an evaluation goes through, the rest of the run is the evaluation's. -/
theorem Reaches.run_eq (reached : Reaches tree work values) :
    run [.evaluate tree] [] = run work values := by
  induction reached with
  | start => rfl
  | step _ done ih => rw [ih, run_cons, done, Except.bind]

theorem Reaches.of_run (reached : Reaches tree work values) (done : run work values = .ok final) :
    Reaches tree [] final := by
  fun_induction run work values with
  | case1 values =>
    cases done
    exact reached
  | case2 => cases done
  | case3 values task rest more left stepped _ ih => exact ih (reached.step stepped) done

theorem Reaches.entered {operator : Token} {operands : List Expr}
    (reached : Reaches tree (.evaluate (.group operator operands) :: work) values) :
    Reaches tree (operands.map .evaluate ++ .apply operator operands.length :: work) values := by
  have pending := reached.step rfl
  rwa [List.append_assoc] at pending

mutual

theorem Reaches.evaluated (part : Expr) {work : List Task} {values : List Value} {value : Value}
    (reached : Reaches tree (.evaluate part :: work) values) (valued : part.meaning = .ok value) :
    Reaches tree work (value :: values) := by
  cases part with
  | atom token =>
    have done : (Task.evaluate (.atom token)).step values = .ok ([], value :: values) := by
      rw [Task.step, show token.value = .ok value from valued]
      rfl
    exact reached.step done
  | group operator operands =>
    rw [Expr.meaning] at valued
    cases operandsValued : Expr.meanings operands with
    | error error => simp [operandsValued, bind, Except.bind] at valued
    | ok results =>
      have combined : operator.combine results = .ok value := by
        simpa only [operandsValued, bind, Except.bind] using valued
      have ready := Reaches.evaluatedAll operands reached.entered operandsValued
      obtain ⟨top, below⟩ := operands_on_top operandsValued values
      have done : (Task.apply operator operands.length).step (results.reverse ++ values) =
          .ok ([], value :: values) := by
        rw [Task.step, top, below, Token.applyTo_eq_combine, combined]
        rfl
      exact ready.step done

theorem Reaches.evaluatedAll (parts : List Expr) {work : List Task} {values results : List Value}
    (reached : Reaches tree (parts.map .evaluate ++ work) values)
    (valued : Expr.meanings parts = .ok results) :
    Reaches tree work (results.reverse ++ values) := by
  cases parts with
  | nil =>
    cases valued
    exact reached
  | cons x xs =>
    rw [Expr.meanings] at valued
    cases first : x.meaning with
    | error error => simp [first, bind, Except.bind] at valued
    | ok value =>
      cases others : Expr.meanings xs with
      | error error => simp [first, others, bind, Except.bind] at valued
      | ok rest =>
        simp only [first, others, bind, Except.bind, pure, Except.pure, Except.ok.injEq] at valued
        subst valued
        rw [List.reverse_cons, List.append_assoc]
        exact Reaches.evaluatedAll xs (Reaches.evaluated x reached first) others

end

theorem run_eq_ok_iff : run [.evaluate tree] [] = .ok final ↔ Reaches tree [] final := by
  constructor
  · exact Reaches.start.of_run
  · intro reached
    rw [reached.run_eq, run_nil]

end Task

namespace Expr

/-- Evaluation computes the meaning, with the error of the first part at fault in postorder. On its
way no operator lacks operands, and at the end the stack holds the value alone. -/
theorem evaluate_eq_meaning (tree : Expr) :
    tree.evaluate = tree.meaning ∧
    (∀ error, tree.evaluate = .error error ↔ tree.postorder.findSome? fault? = some error) ∧
    (∀ operator count work values,
      Task.Reaches tree (.apply operator count :: work) values → count ≤ values.length) ∧
    ∀ values, Task.Reaches tree [] values ↔
      ∃ value, values = [value] ∧ tree.meaning = .ok value := by
  have runs : Task.run [.evaluate tree] [] = tree.meaning.map fun value => [value] := by
    rw [Task.run_evaluate]
    cases tree.meaning with
    | error error => rfl
    | ok value => exact Task.run_nil
  have computes : tree.evaluate = tree.meaning := by
    rw [evaluate, runs]
    cases tree.meaning <;> rfl
  refine ⟨computes, fun error => ?_, fun operator count work values reached => ?_, fun values => ?_⟩
  · rw [findSome?_postorder, computes, fault?]
    cases tree.meaning <;> simp
  · exact reached.serves.1
  · rw [← Task.run_eq_ok_iff, runs]
    cases tree.meaning <;> simp [Except.map, eq_comm]

end Expr
end Uncertainty

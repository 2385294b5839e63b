import Uncertainty.Expr.Parser
import Uncertainty.Value
import Uncertainty.Binary64.Numeral
import Uncertainty.Text.Quoted

/-!
Evaluation of expression trees, with an explicit stack of pending work, so that long chains need no
deep recursion: operands are evaluated from left to right, and a group once its operands are values.
-/
namespace Uncertainty

inductive EvaluationError where
  | notNumeral (text : String)
  | notValue (token : Token)
  | notOperator (token : Token)
  | operandCount (operator : Token) (count : Nat)
  | undefined (error : DomainError)
  | textless (error : Textless)
deriving DecidableEq

namespace EvaluationError

def message : EvaluationError → String
  | notNumeral text => s!"could not convert string to float: {Text.quoted text}"
  | notValue token => s!"Token '{token.lexeme.text}' is not a value"
  | notOperator token => s!"'{token.lexeme.text}' is not an operator"
  | operandCount operator count =>
    s!"Operator '{operator.lexeme.text}' expects 2 operands, got {count}"
  | undefined error => error.message
  | textless error => error.message

end EvaluationError

namespace Operator

def apply : Operator → Value → Value → Except DomainError Value
  | add, x, y => .ok (x.add y)
  | sub, x, y => .ok (x.subtract y)
  | mul, x, y => .ok (x.multiply y)
  | div, x, y => .ok (x.divide y)
  | pow, x, y => x.power y
  | plusMinus, x, y => x.plusMinus y

end Operator

namespace Literal

def value (literal : Literal) : Option Binary64 :=
  Binary64.ofText? literal.toText

end Literal

namespace Token

def eulerNumber : Binary64 := .ofRank false 0x4005BF0A8B145769

def circleNumber : Binary64 := .ofRank false 0x400921FB54442D18

def numberValue (text : String) : Except EvaluationError Value :=
  match Binary64.ofText? text with
  | some x => .ok (.positive x)
  | none => .error (.notNumeral text)

def value (token : Token) : Except EvaluationError Value :=
  match token.lexeme with
  | .number literal => numberValue literal.toText
  | .data .. => do numberValue (← token.lexeme.text?.mapError .textless)
  | .symbol .euler => .ok (.positive eulerNumber)
  | .symbol .pi => .ok (.positive circleNumber)
  | .symbol _ => .error (.notValue token)

/-- Applies a token that stands as an operator; `-` before one operand is negation. -/
def applyTo (token : Token) (operands : List Value) : Except EvaluationError Value :=
  match token.lexeme, operands with
  | .symbol .minus, [x] => .ok x.negate
  | lexeme, operands =>
    match Operator.ofLexeme? lexeme, operands with
    | none, _ =>
      match lexeme.textless? with
      | some error => .error (.textless error)
      | none => .error (.notOperator token)
    | some operator, [x, y] => (operator.apply x y).mapError .undefined
    | some _, operands => .error (.operandCount token operands.length)

end Token

namespace Expr

mutual

/-- The steps that evaluation takes: one for an atom, two for a group and those of its operands. -/
def steps : Expr → Nat
  | atom _ => 1
  | group _ operands => 2 + stepsAll operands

def stepsAll : List Expr → Nat
  | [] => 0
  | x :: xs => steps x + stepsAll xs

end

end Expr

/-- Pending work: a tree to be evaluated, or an operator whose operands are on the stack. -/
inductive Task where
  | evaluate (tree : Expr)
  | apply (operator : Token) (count : Nat)

namespace Task

def steps : Task → Nat
  | evaluate tree => tree.steps
  | apply _ _ => 1

/-- One step: the work that takes the task's place and the stack of values after it, whose top is
the last operand. -/
def step (values : List Value) : Task → Except EvaluationError (List Task × List Value)
  | evaluate (.atom token) => do return ([], (← token.value) :: values)
  | evaluate (.group operator operands) =>
    .ok (operands.map evaluate ++ [apply operator operands.length], values)
  | apply operator count => do
    let result ← operator.applyTo (values.take count).reverse
    return ([], result :: values.drop count)

def stepsOf : List Task → Nat
  | [] => 0
  | task :: rest => task.steps + stepsOf rest

@[simp] theorem stepsOf_append (front back : List Task) :
    stepsOf (front ++ back) = stepsOf front + stepsOf back := by
  induction front with
  | nil => simp [stepsOf]
  | cons task rest ih => simp [stepsOf, ih, Nat.add_assoc]

theorem stepsOf_evaluate (operands : List Expr) :
    stepsOf (operands.map evaluate) = Expr.stepsAll operands := by
  induction operands with
  | nil => rfl
  | cons x xs ih => simp [Expr.stepsAll, stepsOf, steps, ih]

theorem step_decreases {task : Task} {values left : List Value} {work : List Task}
    (h : task.step values = .ok (work, left)) : stepsOf work < task.steps := by
  match task with
  | evaluate (.atom token) =>
    cases hv : token.value <;> simp [step, hv, bind, Except.bind, pure, Except.pure] at h
    simp [h.1, stepsOf, steps, Expr.steps]
  | evaluate (.group operator operands) =>
    simp only [step, Except.ok.injEq, Prod.mk.injEq] at h
    simp only [← h.1, stepsOf_append, stepsOf_evaluate, stepsOf, steps, Expr.steps]
    omega
  | apply operator count =>
    cases hv : operator.applyTo (values.take count).reverse <;>
      simp [step, hv, bind, Except.bind, pure, Except.pure] at h
    simp [h.1, stepsOf, steps]

def run (work : List Task) (values : List Value) : Except EvaluationError (List Value) :=
  match work with
  | [] => .ok values
  | task :: rest =>
    match done : task.step values with
    | .error error => .error error
    | .ok (more, left) =>
      have := step_decreases done
      run (more ++ rest) left
termination_by stepsOf work
decreasing_by simp only [stepsOf_append, stepsOf]; omega

end Task

namespace Expr

def evaluate (tree : Expr) : Except EvaluationError Value :=
  return (← Task.run [.evaluate tree] []).headD (.number .nan)

end Expr
end Uncertainty

import Mathlib.Control.Monad.Basic
import Uncertainty.Proofs.Evaluation.WellFormed
import Uncertainty.Proofs.Expr.WellFormed
import Uncertainty.Proofs.Value.Inversion

/-!
The signs of values. A number that passes for non-negative has no minus sign, not even as zero, and
neither has an uncertainty; either may be undefined. The two go together: such a number can become
an uncertainty. Every operation keeps this up, and so does every step of an evaluation.
-/
namespace Uncertainty

namespace Measurement

theorem signClear_combined (a b : Binary64) : (combined a b).SignClear :=
  ((Binary64.signClear_square a).add (Binary64.signClear_square b)).sqrt

theorem signClear_withRelative (mean : Binary64) (x y : Measurement) :
    (withRelative mean x y).sigma.SignClear :=
  (signClear_combined _ _).mul (Binary64.signClear_abs _)

theorem signClear_pow (x y : Measurement) : (x.pow y).sigma.SignClear :=
  signClear_combined _ _

end Measurement

namespace Value

/-- What the kind of a value promises of its sign. -/
def SignClear : Value → Prop
  | positive x => x.SignClear
  | number _ => True
  | measurement m => m.sigma.SignClear

namespace SignClear

variable {x y value : Value}

theorem negate (clear : x.SignClear) : x.negate.SignClear := by
  cases x with
  | positive | number => trivial
  | measurement => exact clear

theorem add (left : x.SignClear) (right : y.SignClear) : (x.add y).SignClear := by
  cases x with
  | positive =>
    cases y with
    | positive => exact Binary64.SignClear.add left right
    | number => trivial
    | measurement => exact right
  | number =>
    cases y with
    | positive | number => trivial
    | measurement => exact right
  | measurement =>
    cases y with
    | positive | number => exact left
    | measurement => exact Measurement.signClear_combined ..

theorem subtract (left : x.SignClear) (right : y.SignClear) : (x.subtract y).SignClear := by
  cases x with
  | positive | number =>
    cases y with
    | positive | number => trivial
    | measurement => exact right
  | measurement =>
    cases y with
    | positive | number => exact left
    | measurement => exact Measurement.signClear_combined ..

theorem multiply (left : x.SignClear) (right : y.SignClear) : (x.multiply y).SignClear := by
  cases x with
  | positive a =>
    cases y with
    | positive => exact Binary64.SignClear.mul left right
    | number => trivial
    | measurement => exact Binary64.SignClear.mul right (Binary64.signClear_abs a)
  | number a =>
    cases y with
    | positive | number => trivial
    | measurement => exact Binary64.SignClear.mul right (Binary64.signClear_abs a)
  | measurement =>
    cases y with
    | positive b | number b => exact Binary64.SignClear.mul left (Binary64.signClear_abs b)
    | measurement => exact Measurement.signClear_withRelative ..

theorem divide (left : x.SignClear) (right : y.SignClear) : (x.divide y).SignClear := by
  cases x with
  | positive =>
    cases y with
    | positive => exact Binary64.SignClear.div left right
    | number => trivial
    | measurement => exact Measurement.signClear_withRelative ..
  | number =>
    cases y with
    | positive | number => trivial
    | measurement => exact Measurement.signClear_withRelative ..
  | measurement =>
    cases y with
    | positive b | number b => exact Binary64.SignClear.div left (Binary64.signClear_abs b)
    | measurement => exact Measurement.signClear_withRelative ..

/-- The exponent is of no account: the sign of a power comes from its base. -/
theorem power (left : x.SignClear) (raised : x.power y = .ok value) : value.SignClear := by
  rcases power_ok raised with
    ⟨m, -, -, rfl⟩ | ⟨base, n, -, -, -, rfl⟩ |
    ⟨base, k, -, -, ⟨rfl, -, rfl⟩ | ⟨-, -, rfl⟩ | ⟨-, -, rfl⟩⟩
  · exact Measurement.signClear_pow ..
  · exact Measurement.signClear_pow ..
  · exact Binary64.SignClear.pow left k
  · trivial
  · trivial

theorem plusMinus (right : y.SignClear) (made : x.plusMinus y = .ok value) : value.SignClear := by
  obtain ⟨mean, sigma, -, rfl, -, rfl⟩ := plusMinus_ok made
  exact right

end SignClear

end Value

variable {operator : Operator} {sign : Token} {x y value : Value}
variable {operands values left : List Value} {tree : Expr} {task : Task} {work more : List Task}

theorem Operator.apply_signClear (left : x.SignClear) (right : y.SignClear)
    (applied : operator.apply x y = .ok value) : value.SignClear := by
  cases operator with
  | add =>
    cases applied
    exact left.add right
  | sub =>
    cases applied
    exact left.subtract right
  | mul =>
    cases applied
    exact left.multiply right
  | div =>
    cases applied
    exact left.divide right
  | pow => exact left.power applied
  | plusMinus => exact right.plusMinus applied

theorem Token.combine_signClear (clear : ∀ x ∈ operands, x.SignClear)
    (combined : sign.combine operands = .ok value) : value.SignClear := by
  rcases combine_ok combined with ⟨x, rfl, rfl⟩ | ⟨operator, x, y, -, rfl, applied⟩
  · exact (clear x (by simp)).negate
  · exact Operator.apply_signClear (clear x (by simp)) (clear y (by simp)) applied

namespace Task

/-- The trees that are still to be evaluated are well-formed, and the values so far keep what their
kinds promise. -/
structure Clear (work : List Task) (values : List Value) : Prop where
  formed : ∀ tree, evaluate tree ∈ work → tree.WellFormed
  clear : ∀ value ∈ values, value.SignClear

theorem Clear.step (state : Clear (task :: work) values)
    (done : task.step values = .ok (more, left)) : Clear (more ++ work) left := by
  have pending : ∀ tree, evaluate tree ∈ work → tree.WellFormed :=
    fun tree member => state.formed tree (List.mem_cons_of_mem _ member)
  match task with
  | evaluate (.atom token) =>
    obtain ⟨x, clear, valued⟩ := (state.formed _ List.mem_cons_self).value_eq
    rw [Task.step, valued] at done
    cases done
    exact ⟨pending, List.forall_mem_cons.mpr ⟨clear, state.clear⟩⟩
  | evaluate (.group operator operands) =>
    cases done
    refine ⟨fun tree member => ?_, state.clear⟩
    simp only [List.append_assoc, List.singleton_append, List.mem_append, List.mem_map,
      List.mem_cons, evaluate.injEq, exists_eq_right, reduceCtorEq, false_or] at member
    rcases member with operand | later
    · exact (state.formed _ List.mem_cons_self).of_mem operand
    · exact pending tree later
  | apply operator count =>
    rw [Task.step, Token.applyTo_eq_combine] at done
    cases combined : operator.combine (values.take count).reverse with
    | error =>
      rw [combined] at done
      cases done
    | ok result =>
      rw [combined] at done
      cases done
      have operandsClear : ∀ x ∈ (values.take count).reverse, x.SignClear := fun x operand =>
        state.clear x (List.mem_of_mem_take (List.mem_reverse.mp operand))
      refine ⟨pending, List.forall_mem_cons.mpr ⟨?_, fun value below => ?_⟩⟩
      · exact Token.combine_signClear operandsClear combined
      · exact state.clear value (List.mem_of_mem_drop below)

theorem Reaches.clear (formed : tree.WellFormed) (reached : Reaches tree work values) :
    Clear work values := by
  induction reached with
  | start =>
    refine ⟨fun other member => ?_, nofun⟩
    cases List.mem_singleton.mp member
    exact formed
  | step _ done ih => exact ih.step done

end Task

namespace Expr

theorem WellFormed.meaning_signClear (formed : tree.WellFormed)
    (valued : tree.meaning = .ok value) : value.SignClear :=
  ((reaches_of_meaning valued).clear formed).clear value List.mem_cons_self

/-- No value that the evaluation of a tree ever has on its stack has a minus sign where its kind
promises none, if the tree is well-formed, as one that has been read from a text is. -/
theorem signClear_of_reaches
    (origin : tree.WellFormed ∨ ∃ limit text, ofText limit text = .ok tree)
    (reached : Task.Reaches tree work values) : ∀ value ∈ values, value.SignClear := by
  rcases origin with formed | ⟨limit, text, read⟩
  · exact (reached.clear formed).clear
  · exact (reached.clear (wellFormed_of_ofText read)).clear

/-- The uncertainty of `-1 * (2 ± 0)` is zero and not minus zero. -/
theorem signClear_of_negative_multiple :
    let numeral (digits : String) := atom ⟨.number ⟨digits, ""⟩, none⟩
    let tree := group ⟨.symbol .star, none⟩ [group ⟨.symbol .minus, none⟩ [numeral "1"],
      group ⟨.symbol .plusMinus, none⟩ [numeral "2", numeral "0"]]
    let value := Value.measurement ⟨.ofRank true 0x4000000000000000, .zero⟩
    tree.WellFormed ∧ Task.Reaches tree [] [value] ∧ value.SignClear := by
  intro numeral tree value
  have one : Literal.IsDecimal ⟨"1", ""⟩ := ⟨by simp, by simp, by simp⟩
  have two : Literal.IsDecimal ⟨"2", ""⟩ := ⟨by simp, by simp, by simp⟩
  have zero : Literal.IsDecimal ⟨"0", ""⟩ := ⟨by simp, by simp, by simp⟩
  have formed : tree.WellFormed := .infixed rfl (.negation rfl (.number rfl one))
    (.infixed rfl (.number rfl two) (.number rfl zero))
  have reached : Task.Reaches tree [] [value] := reaches_of_meaning (by decide +kernel)
  exact ⟨formed, reached, signClear_of_reaches (.inl formed) reached value List.mem_cons_self⟩

end Expr
end Uncertainty

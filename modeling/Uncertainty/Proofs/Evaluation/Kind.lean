import Uncertainty.Proofs.Evaluation.Sign

/-!
The kinds of values. A tree tells by its shape alone which kind of value it has, if it has one, and
whether each of its uncertainties can be one. That the shape is enough for powers, which look at the
sign of their base, is owed to the signs that the kinds promise.
-/
namespace Uncertainty

inductive Kind where
  | positive
  | number
  | measurement
deriving DecidableEq

namespace Value

def kind : Value → Kind
  | positive _ => .positive
  | number _ => .number
  | measurement _ => .measurement

end Value

namespace Kind

def negated : Kind → Kind
  | measurement => measurement
  | positive | number => number

theorem negated_ne_measurement {operand : Kind} (plain : operand ≠ measurement) :
    operand.negated ≠ measurement := by
  revert plain
  cases operand <;> decide

def joined : Kind → Kind → Kind
  | measurement, _ | _, measurement => measurement
  | positive, positive => positive
  | positive, number | number, positive | number, number => number

def difference : Kind → Kind → Kind
  | measurement, _ | _, measurement => measurement
  | _, _ => number

def raised : Kind → Kind → Kind
  | measurement, _ | _, measurement => measurement
  | base, _ => base

end Kind

namespace Operator

def kind : Operator → Kind → Kind → Kind
  | add | mul | div => Kind.joined
  | sub => Kind.difference
  | pow => Kind.raised
  | plusMinus => fun _ _ => .measurement

end Operator

namespace Expr

/-- The kind that the shape of a well-formed tree tells. -/
def kind : Expr → Kind
  | atom _ => .positive
  | group _ [x] => x.kind.negated
  | group sign [x, y] =>
    match Operator.ofLexeme? sign.lexeme with
    | some operator => operator.kind x.kind y.kind
    | none => .number
  | group _ _ => .number

/-- Each `±` stands between a plain number and one that is known to be non-negative, by their
shapes. -/
def Typed (tree : Expr) : Prop :=
  ∀ sign left right, group sign [left, right] ∈ tree.postorder → sign.lexeme = .symbol .plusMinus →
    left.kind ≠ .measurement ∧ right.kind = .positive

/-- Evaluation comes to a part of a tree if all parts before it have values. -/
def ComesTo (tree part : Expr) : Prop :=
  ∃ before after, tree.postorder = before ++ part :: after ∧ ∀ other ∈ before, other.fault? = none

/-- Evaluation fails at an operator which it comes to, and which is undefined for the values of its
operands. -/
def FailsAt (tree : Expr) (error : DomainError) (operator : Operator) (x y : Value) : Prop :=
  ∃ sign left right, tree.ComesTo (group sign [left, right]) ∧
    Operator.ofLexeme? sign.lexeme = some operator ∧ left.meaning = .ok x ∧ right.meaning = .ok y ∧
    operator.apply x y = .error error

end Expr

namespace Value

variable {x y value : Value} {error : DomainError}

theorem kind_negate (x : Value) : x.negate.kind = x.kind.negated := by
  cases x <;> rfl

theorem kind_add (x y : Value) : (x.add y).kind = x.kind.joined y.kind := by
  cases x <;> cases y <;> rfl

theorem kind_subtract (x y : Value) : (x.subtract y).kind = x.kind.difference y.kind := by
  cases x <;> cases y <;> rfl

theorem kind_multiply (x y : Value) : (x.multiply y).kind = x.kind.joined y.kind := by
  cases x <;> cases y <;> rfl

theorem kind_divide (x y : Value) : (x.divide y).kind = x.kind.joined y.kind := by
  cases x <;> cases y <;> rfl

/-- A base without a minus sign is never treated as a negative one. -/
theorem Raisable.of_signClear {base : Binary64} (clear : base.SignClear) : Raisable base := by
  cases base with
  | nan => rfl
  | infinite s =>
    obtain rfl : s = false := clear
    rfl
  | finite s rank =>
    obtain rfl : s = false := clear
    have below : (0 : Int) ≤ (rank.val : Int) := Int.natCast_nonneg _
    simp [Raisable, Binary64.atMost, Binary64.compareBy, Binary64.place?, Binary64.zero,
      Binary64.signed, below]

theorem kind_power (clear : x.SignClear) (raised : x.power y = .ok value) :
    value.kind = x.kind.raised y.kind := by
  rcases power_ok raised with
    ⟨m, rfl, -, rfl⟩ | ⟨base, n, plain, rfl, -, rfl⟩ |
    ⟨base, k, plain, exponent, ⟨rfl, -, rfl⟩ | ⟨rfl, -, rfl⟩ | ⟨negative, -, rfl⟩⟩
  · cases y <;> rfl
  · rcases plain with rfl | rfl <;> rfl
  · rcases exponent with rfl | rfl <;> rfl
  · rcases exponent with rfl | rfl <;> rfl
  · rcases plain with rfl | rfl
    · exact absurd (.of_signClear clear) negative
    · rcases exponent with rfl | rfl <;> rfl

theorem kind_plusMinus (made : x.plusMinus y = .ok value) :
    value.kind = .measurement ∧ x.kind ≠ .measurement ∧ y.kind = .positive := by
  obtain ⟨mean, sigma, plain, rfl, -, rfl⟩ := plusMinus_ok made
  refine ⟨rfl, ?_, rfl⟩
  rcases plain with rfl | rfl <;> nofun

/-- Of a number that passes for non-negative, only an undefined one cannot be an uncertainty. -/
theorem plusMinus_error (plain : x.kind ≠ .measurement) (positive : y.kind = .positive)
    (refused : x.plusMinus y = .error error) : y = .positive .nan := by
  cases y with
  | positive sigma =>
    unfold plusMinus at refused
    dsimp only at refused
    split at refused
    case isTrue undefined => cases sigma <;> first | rfl | cases undefined
    case isFalse =>
      cases x with
      | positive | number => cases refused
      | measurement => exact absurd rfl plain
  | number | measurement => cases positive

end Value

namespace Operator

variable {operator : Operator} {x y value : Value} {error : DomainError}

theorem kind_apply (clear : x.SignClear) (applied : operator.apply x y = .ok value) :
    value.kind = operator.kind x.kind y.kind := by
  cases operator with
  | add =>
    cases applied
    exact Value.kind_add x y
  | sub =>
    cases applied
    exact Value.kind_subtract x y
  | mul =>
    cases applied
    exact Value.kind_multiply x y
  | div =>
    cases applied
    exact Value.kind_divide x y
  | pow => exact Value.kind_power clear applied
  | plusMinus => exact (Value.kind_plusMinus applied).1

theorem eq_plusMinus_iff {lexeme : Lexeme} :
    ofLexeme? lexeme = some .plusMinus ↔ lexeme = .symbol .plusMinus := by
  cases lexeme with
  | symbol symbol => cases symbol <;> simp [ofLexeme?, ofSymbol?]
  | number | data => simp [ofLexeme?]

theorem kind_ne_measurement {x y : Kind} (noPlusMinus : operator ≠ .plusMinus)
    (left : x ≠ .measurement) (right : y ≠ .measurement) : operator.kind x y ≠ .measurement := by
  revert noPlusMinus left right
  cases operator <;> cases x <;> cases y <;> decide

/-- Powers and uncertainties are all that can be undefined. -/
theorem pow_or_plusMinus (undefined : operator.apply x y = .error error) :
    operator = .pow ∨ operator = .plusMinus := by
  cases operator with
  | add | sub | mul | div => cases undefined
  | pow => exact .inl rfl
  | plusMinus => exact .inr rfl

end Operator

namespace Expr

variable {sign : Token} {operator : Operator} {tree part operand left right : Expr}
variable {value : Value} {error : EvaluationError}

theorem kind_infixed (isOperator : Operator.ofLexeme? sign.lexeme = some operator) :
    (group sign [left, right]).kind = operator.kind left.kind right.kind := by
  rw [kind, isOperator]

theorem postorder_negation : (group sign [operand]).postorder =
    operand.postorder ++ [group sign [operand]] := by
  simp [postorder, postorderAll]

theorem postorder_infixed : (group sign [left, right]).postorder =
    left.postorder ++ (right.postorder ++ [group sign [left, right]]) := by
  simp [postorder, postorderAll]

theorem mem_postorder_negation : part ∈ (group sign [operand]).postorder ↔
    part ∈ operand.postorder ∨ part = group sign [operand] := by
  rw [postorder_negation, List.mem_append, List.mem_singleton]

theorem mem_postorder_infixed : part ∈ (group sign [left, right]).postorder ↔
    part ∈ left.postorder ∨ part ∈ right.postorder ∨ part = group sign [left, right] := by
  rw [postorder_infixed, List.mem_append, List.mem_append, List.mem_singleton]

theorem Typed.atom (token : Token) : (atom token).Typed := by
  intro sign left right member
  cases List.mem_singleton.mp member

theorem Typed.negation (typed : operand.Typed) : (group sign [operand]).Typed := by
  intro other left right member
  rcases mem_postorder_negation.mp member with inside | itself
  · exact typed other left right inside
  · cases itself

theorem Typed.infixed (leftTyped : left.Typed) (rightTyped : right.Typed)
    (here : sign.lexeme = .symbol .plusMinus → left.kind ≠ .measurement ∧ right.kind = .positive) :
    (group sign [left, right]).Typed := by
  intro other x y member
  rcases mem_postorder_infixed.mp member with inLeft | inRight | itself
  · exact leftTyped other x y inLeft
  · exact rightTyped other x y inRight
  · cases itself
    exact here

theorem WellFormed.of_mem_postorder (formed : tree.WellFormed) (member : part ∈ tree.postorder) :
    part.WellFormed := by
  induction formed using byForm with
  | atom token formed =>
    obtain rfl := List.mem_singleton.mp member
    exact formed
  | negation _ _ isMinus formed ih =>
    rcases mem_postorder_negation.mp member with inside | rfl
    · exact ih inside
    · exact .negation isMinus formed
  | infixed _ _ _ _ isOperator leftFormed rightFormed ihLeft ihRight =>
    rcases mem_postorder_infixed.mp member with inLeft | inRight | rfl
    · exact ihLeft inLeft
    · exact ihRight inRight
    · exact .infixed isOperator leftFormed rightFormed

/-- A tree that has a value is typed, and its value has the kind that its shape tells. -/
theorem WellFormed.typed_of_meaning (formed : tree.WellFormed) (valued : tree.meaning = .ok value) :
    tree.Typed ∧ value.kind = tree.kind := by
  induction formed using byForm generalizing value with
  | atom token formed =>
    obtain ⟨x, -, read⟩ := formed.value_eq
    rw [meaning, read] at valued
    cases valued
    exact ⟨.atom token, rfl⟩
  | negation _ _ isMinus _ ih =>
    obtain ⟨x, operandValued, rfl⟩ := (meaning_negation_ok isMinus).mp valued
    obtain ⟨typed, sameKind⟩ := ih operandValued
    refine ⟨typed.negation, ?_⟩
    rw [Value.kind_negate, sameKind, kind]
  | infixed _ _ _ _ isOperator leftFormed rightFormed ihLeft ihRight =>
    obtain ⟨x, y, leftValued, rightValued, applied⟩ := (meaning_infixed_ok isOperator).mp valued
    obtain ⟨leftTyped, leftKind⟩ := ihLeft leftValued
    obtain ⟨rightTyped, rightKind⟩ := ihRight rightValued
    refine ⟨leftTyped.infixed rightTyped fun isPlusMinus => ?_, ?_⟩
    · rw [Operator.eq_plusMinus_iff.mpr isPlusMinus] at isOperator
      cases isOperator
      rw [← leftKind, ← rightKind]
      exact (Value.kind_plusMinus applied).2
    · rw [kind_infixed isOperator, ← leftKind, ← rightKind]
      exact Operator.kind_apply (leftFormed.meaning_signClear leftValued) applied

theorem fault?_of_mem (valued : tree.meaning = .ok value) (member : part ∈ tree.postorder) :
    part.fault? = none := by
  have faultless := findSome?_postorder tree
  rw [fault?, valued] at faultless
  exact List.findSome?_eq_none_iff.mp faultless part member

theorem comesTo_negation (comes : operand.ComesTo part) :
    (group sign [operand]).ComesTo part := by
  obtain ⟨before, after, place, valued⟩ := comes
  refine ⟨before, after ++ [group sign [operand]], ?_, valued⟩
  rw [postorder_negation, place, List.append_assoc, List.cons_append]

theorem comesTo_left (comes : left.ComesTo part) : (group sign [left, right]).ComesTo part := by
  obtain ⟨before, after, place, valued⟩ := comes
  refine ⟨before, after ++ (right.postorder ++ [group sign [left, right]]), ?_, valued⟩
  rw [postorder_infixed, place, List.append_assoc, List.cons_append]

theorem comesTo_right (leftValued : left.meaning = .ok value) (comes : right.ComesTo part) :
    (group sign [left, right]).ComesTo part := by
  obtain ⟨before, after, place, valued⟩ := comes
  refine ⟨left.postorder ++ before, after ++ [group sign [left, right]], ?_, fun other member => ?_⟩
  · rw [postorder_infixed, place, List.append_assoc, List.append_assoc, List.cons_append]
  · rcases List.mem_append.mp member with inLeft | inRight
    · exact fault?_of_mem leftValued inLeft
    · exact valued other inRight

theorem comesTo_infixed {x y : Value} (leftValued : left.meaning = .ok x)
    (rightValued : right.meaning = .ok y) :
    (group sign [left, right]).ComesTo (group sign [left, right]) := by
  refine ⟨left.postorder ++ right.postorder, [], ?_, fun other member => ?_⟩
  · rw [postorder_infixed, List.append_assoc]
  · rcases List.mem_append.mp member with inLeft | inRight
    · exact fault?_of_mem leftValued inLeft
    · exact fault?_of_mem rightValued inRight

theorem ComesTo.mem (comes : tree.ComesTo part) : part ∈ tree.postorder := by
  obtain ⟨before, after, place, -⟩ := comes
  rw [place]
  exact List.mem_append_right _ List.mem_cons_self

section FailsAt

variable {x y : Value} {undefined : DomainError}

theorem FailsAt.inside {whole : Expr} (fails : tree.FailsAt undefined operator x y)
    (within : ∀ part, tree.ComesTo part → whole.ComesTo part) :
    whole.FailsAt undefined operator x y := by
  obtain ⟨sign, left, right, comes, refused⟩ := fails
  exact ⟨sign, left, right, within _ comes, refused⟩

theorem WellFormed.exists_failsAt (formed : tree.WellFormed)
    (failed : tree.meaning = .error (.undefined undefined)) :
    ∃ operator x y, tree.FailsAt undefined operator x y := by
  induction formed using byForm with
  | atom token formed => exact absurd failed formed.atom_ne_error
  | negation _ _ isMinus _ ih =>
    obtain ⟨operator, x, y, fails⟩ := ih ((meaning_negation_error isMinus).mp failed)
    exact ⟨operator, x, y, fails.inside fun _ => comesTo_negation⟩
  | infixed _ operator _ _ isOperator _ _ ihLeft ihRight =>
    rcases (meaning_infixed_error isOperator).mp failed with
      failed | ⟨x, leftValued, failed⟩ | ⟨x, y, error, leftValued, rightValued, refused, same⟩
    · obtain ⟨operator, x, y, fails⟩ := ihLeft failed
      exact ⟨operator, x, y, fails.inside fun _ => comesTo_left⟩
    · obtain ⟨operator, x, y, fails⟩ := ihRight failed
      exact ⟨operator, x, y, fails.inside fun _ => comesTo_right leftValued⟩
    · cases same
      exact ⟨operator, x, y, _, _, _, comesTo_infixed leftValued rightValued, isOperator,
        leftValued, rightValued, refused⟩

end FailsAt

/-- The shape of a tree tells the kind of its value, if it has one. If the shapes of its
uncertainties allow them, then it can fail only at a power or at an undefined uncertainty. -/
theorem kind_of_evaluate (formed : tree.WellFormed) :
    (∀ value, tree.evaluate = .ok value → tree.Typed ∧ value.kind = tree.kind) ∧
    (tree.Typed → ∀ error, tree.evaluate = .error error →
      ∃ undefined operator x y, error = .undefined undefined ∧
        tree.FailsAt undefined operator x y ∧
        (operator = .pow ∨ operator = .plusMinus ∧ y = .positive .nan)) := by
  rw [evaluate_computes]
  refine ⟨fun value valued => formed.typed_of_meaning valued, fun typed error failed => ?_⟩
  obtain ⟨undefined, rfl⟩ := formed.error_undefined failed
  obtain ⟨operator, x, y, fails⟩ := formed.exists_failsAt failed
  refine ⟨undefined, operator, x, y, rfl, fails, ?_⟩
  obtain ⟨sign, left, right, comes, isOperator, leftValued, rightValued, refused⟩ := fails
  rcases Operator.pow_or_plusMinus refused with rfl | rfl
  · exact .inl rfl
  · have part := formed.of_mem_postorder comes.mem
    have leftKind := (part.of_mem (by simp)).typed_of_meaning leftValued
    have rightKind := (part.of_mem (by simp)).typed_of_meaning rightValued
    have possible := typed sign left right comes.mem (Operator.eq_plusMinus_iff.mp isOperator)
    rw [← leftKind.2, ← rightKind.2] at possible
    exact .inr ⟨rfl, Value.plusMinus_error possible.1 possible.2 refused⟩

/-- The shape of `1 ± 0 / 0` allows it, but its uncertainty is undefined. -/
theorem kind_of_evaluate_undefined :
    let numeral (digits : String) := atom ⟨.number ⟨digits, ""⟩, none⟩
    let tree := group ⟨.symbol .plusMinus, none⟩
      [numeral "1", group ⟨.symbol .slash, none⟩ [numeral "0", numeral "0"]]
    tree.WellFormed ∧ tree.Typed ∧ ∃ undefined operator x y,
      tree.evaluate = .error (.undefined undefined) ∧ tree.FailsAt undefined operator x y ∧
        (operator = .pow ∨ operator = .plusMinus ∧ y = .positive .nan) := by
  intro numeral tree
  have one : Literal.IsDecimal ⟨"1", ""⟩ := ⟨by simp, by simp, by simp⟩
  have zero : Literal.IsDecimal ⟨"0", ""⟩ := ⟨by simp, by simp, by simp⟩
  have formed : tree.WellFormed :=
    .infixed rfl (.number rfl one) (.infixed rfl (.number rfl zero) (.number rfl zero))
  have typed : tree.Typed :=
    (Typed.atom _).infixed ((Typed.atom _).infixed (Typed.atom _) nofun) fun _ => by decide
  have failed : tree.evaluate = .error (.undefined (.uncertainty (.positive .nan))) := by
    rw [evaluate_computes]
    decide +kernel
  obtain ⟨undefined, operator, x, y, same, fails, origin⟩ :=
    (kind_of_evaluate formed).2 typed _ failed
  rw [same] at failed
  exact ⟨formed, typed, undefined, operator, x, y, failed, fails, origin⟩

end Expr
end Uncertainty

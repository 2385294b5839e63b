import Mathlib.Data.Nat.Find
import Uncertainty.Proofs.Expr.Contract

/-!
The limit of depth as a threshold. A parser with few levels either fails for its depth or does just
what one with more levels does. Each level that is entered takes a token other than the end of
input, so that one level more than there are such tokens is always enough.
-/
namespace Uncertainty

namespace Parser

variable {α β : Type} {limit limit' : Int} {levels levels' power rounds : Nat} {left : Expr}
variable {nested nested' : Nat → Parser Expr} {tokens : List Token}

section Raising

/-- A parser fails for the limit of depth, or it does the same as another one. -/
def Below (limit : Int) (parser deeper : Parser α) : Prop :=
  ∀ tokens, (∃ unread, parser.run tokens = .error (.tooDeep limit) unread) ∨
    parser.run tokens = deeper.run tokens

variable {parser deeper other other' : Parser α} {next next' : α → Parser β}

theorem Below.refl (parser : Parser α) : Below limit parser parser :=
  fun _ => .inr rfl

theorem Below.bind (first : Below limit parser deeper)
    (second : ∀ a, Below limit (next a) (next' a)) :
    Below limit (parser >>= next) (deeper >>= next') := by
  intro tokens
  rw [EStateM.run_bind, EStateM.run_bind]
  rcases first tokens with ⟨unread, failed⟩ | same
  · rw [failed]
    exact .inl ⟨unread, rfl⟩
  · rw [← same]
    cases parser.run tokens with
    | ok a rest => exact second a rest
    | error error rest => exact .inr rfl

theorem Below.ite {condition : Prop} [Decidable condition] (first : Below limit parser deeper)
    (second : Below limit other other') :
    Below limit (if condition then parser else other) (if condition then deeper else other') := by
  split
  · exact first
  · exact second

/-- Nothing behind a failure is reached. -/
theorem below_failAt {token : Token} {error : SyntaxError} :
    Below limit (failAt token error >>= next) (failAt token error >>= next') :=
  fun _ => .inr rfl

theorem below_operand (inner : ∀ power, Below limit (nested power) (nested' power)) :
    Below limit (operand nested) (operand nested') := by
  refine (Below.refl Parser.next).bind fun token => .ite (.refl _) ?_
  split
  case h_1 => exact (inner 0).bind fun tree => .refl _
  case h_2 => exact (inner _).bind fun tree => .refl _
  case h_3 => exact .refl _

theorem below_extend (inner : ∀ power, Below limit (nested power) (nested' power)) :
    Below limit (extend nested power rounds left) (extend nested' power rounds left) := by
  induction rounds generalizing left with
  | zero => exact .refl _
  | succ rounds ih =>
    refine (Below.refl peek).bind fun token => ?_
    dsimp only
    refine .ite below_failAt (.ite below_failAt ?_)
    split
    case h_1 => exact .refl _
    case h_2 operator _ =>
      refine .ite (.refl _) ((Below.refl Parser.next).bind fun sign => ?_)
      exact (inner operator.rightPower).bind fun right => ih

/-- More levels change nothing but a failure for depth, and neither does a higher limit. -/
theorem below_expression (le : levels ≤ levels') (power : Nat) :
    Below limit (expression limit levels power) (expression limit' levels' power) := by
  induction levels generalizing levels' power with
  | zero => exact fun tokens => .inl ⟨tokens, rfl⟩
  | succ levels ih =>
    cases levels' with
    | zero => cases le
    | succ levels' =>
      have inner := fun power => ih (Nat.le_of_succ_le_succ le) power
      exact (below_operand inner).bind fun left => (Below.refl get).bind fun tokens =>
        below_extend inner

theorem below_whole (le : limit ≤ limit') : Below limit (whole limit) (whole limit') :=
  (below_expression (Int.toNat_le_toNat le) 0).bind fun _ => .refl _

end Raising

section Enough

/-- How many tokens are no end of input. -/
def innerCount (tokens : List Token) : Nat :=
  tokens.countP (·.lexeme ≠ .symbol .endOfInput)

theorem innerCount_le (tokens : List Token) : innerCount tokens ≤ tokens.length :=
  List.countP_le_length

theorem innerCount_of_suffix {rest : List Token} (behind : rest <:+ tokens) :
    innerCount rest ≤ innerCount tokens :=
  behind.sublist.countP_le

theorem innerCount_tail (tokens : List Token) {head : Token}
    (isHead : tokens.headD .endOfInput = head)
    (inner : head.lexeme ≠ .symbol .endOfInput) :
    innerCount tokens = innerCount tokens.tail + 1 := by
  cases tokens with
  | nil =>
    subst isHead
    exact absurd rfl inner
  | cons token tokens =>
    obtain rfl : token = head := isHead
    exact List.countP_cons_of_pos (by simpa using inner)

theorem fault_ne_tooDeep (found : Token) (error : SyntaxError) (limit : Int) :
    fault found error ≠ .tooDeep limit := by
  unfold fault
  cases found.lexeme.textless? <;> exact nofun

/-- With more levels than there are tokens to read, no failure is for depth. -/
theorem expression_shallow (enough : innerCount tokens < levels) :
    Ensures (expression limit levels power) tokens (fun _ rest => rest <:+ tokens)
      (fun error _ => ∀ limit, error ≠ .tooDeep limit) := by
  induction levels generalizing power tokens with
  | zero => cases enough
  | succ levels ih =>
    have behind (tokens : List Token) : tokens.tail <:+ tokens := List.tail_suffix tokens
    apply ensures_expression
    have operandHolds : Ensures (operand (expression limit levels)) tokens
        (fun _ rest => rest <:+ tokens) (fun error _ => ∀ limit, error ≠ .tooDeep limit) := by
      refine ensures_operand rfl (fun _ => behind tokens) (fun opens => ?_) (fun isMinus => ?_)
        fun _ _ _ => fault_ne_tooDeep _ _
      · have fewer := innerCount_tail tokens rfl (by rw [opens]; decide)
        refine Ensures.mono (ih (by omega)) fun inner rest suffix => ⟨fun _ => ?_, fun _ => ?_⟩
        · exact (behind rest).trans (suffix.trans (behind tokens))
        · exact fault_ne_tooDeep _ _
      · have fewer := innerCount_tail tokens rfl (by rw [isMinus]; decide)
        refine Ensures.mono (ih (by omega)) fun x rest suffix => ?_
        exact suffix.trans (behind tokens)
    refine operandHolds.mono fun left rest suffix => ?_
    refine ensures_extend (fun _ unread => unread <:+ tokens) (Nat.le_refl _) suffix
      (fun _ _ suffix _ => suffix) (fun _ _ _ _ _ => fault_ne_tooDeep _ _)
      (fun _ _ _ _ _ => fault_ne_tooDeep _ _) fun left sign unread operator suffix spelled _ => ?_
    have inner : sign.lexeme ≠ .symbol .endOfInput := by
      intro ends
      rw [ends] at spelled
      cases spelled
    have fewer := innerCount_tail (sign :: unread) rfl inner
    have atMost := innerCount_of_suffix suffix
    rw [List.tail_cons] at fewer
    refine (ih (by omega)).mono fun right rest suffixRight => ⟨suffixRight.length_le, ?_⟩
    exact suffixRight.trans ((behind (sign :: unread)).trans suffix)

theorem whole_shallow (enough : (innerCount tokens : Int) < limit) :
    Ensures (whole limit) tokens (fun _ _ => True)
      (fun error _ => ∀ limit, error ≠ .tooDeep limit) := by
  apply ensures_whole
  refine (expression_shallow (by omega)).mono fun tree rest _ => ⟨fun _ => trivial, ?_, ?_⟩
  · exact fun _ => fault_ne_tooDeep _ _
  · exact fun _ _ => fault_ne_tooDeep _ _

end Enough

end Parser

namespace Expr

variable {limit limit' : Int} {tokens : List Token}

theorem ofTokens_of_nonpos (nonpos : limit ≤ 0) :
    (ofTokens limit tokens).1 = .error (.tooDeep limit) := by
  have noLevel : limit.toNat = 0 := Int.toNat_of_nonpos nonpos
  rw [ofTokens, Parser.whole_run, noLevel]
  rfl

theorem ofTokens_tooDeep_or_eq (le : limit ≤ limit') :
    (ofTokens limit tokens).1 = .error (.tooDeep limit) ∨
      ofTokens limit tokens = ofTokens limit' tokens := by
  unfold ofTokens
  rcases Parser.below_whole le tokens with ⟨unread, failed⟩ | same
  · rw [failed]
    exact .inl rfl
  · rw [same]
    exact .inr rfl

theorem ofTokens_ne_tooDeep (enough : (Parser.innerCount tokens : Int) < limit) (limit' : Int) :
    (ofTokens limit tokens).1 ≠ .error (.tooDeep limit') := by
  have shallow := Parser.whole_shallow enough
  unfold ofTokens
  cases ran : (Parser.whole limit).run tokens with
  | ok tree rest => exact nofun
  | error error rest =>
    intro same
    exact shallow.of_error ran limit' (Except.error.inj same)

/-- For every list of tokens the limit of depth is a threshold: every lower limit is exceeded, and
all others lead to one outcome and leave the same tokens. -/
theorem exists_depth_threshold (tokens : List Token) :
    ∃ depth : Int, 1 ≤ depth ∧ depth ≤ 1 + Parser.innerCount tokens ∧
      (∀ limit < depth, (ofTokens limit tokens).1 = .error (.tooDeep limit)) ∧
      ∃ outcome, (∀ limit, outcome.1 ≠ .error (.tooDeep limit)) ∧
        ∀ limit ≥ depth, ofTokens limit tokens = outcome := by
  classical
  let Enough (levels : Nat) : Prop := (ofTokens levels tokens).1 ≠ .error (.tooDeep levels)
  let most : Nat := 1 + Parser.innerCount tokens
  have shallow (limit : Int) : (ofTokens most tokens).1 ≠ .error (.tooDeep limit) :=
    ofTokens_ne_tooDeep (by omega) limit
  have exists_enough : ∃ levels, Enough levels := ⟨most, shallow most⟩
  obtain ⟨depth, enough, least⟩ : ∃ depth, Enough depth ∧ ∀ levels < depth, ¬ Enough levels :=
    ⟨_, Nat.find_spec exists_enough, fun _ => Nat.find_min exists_enough⟩
  have positive : 0 < depth := by
    refine Nat.pos_of_ne_zero fun isZero => enough ?_
    exact ofTokens_of_nonpos (by omega)
  have atMost : depth ≤ most := by
    refine Nat.le_of_not_lt fun beyond => least most beyond ?_
    exact shallow most
  have settled (limit : Int) (le : depth ≤ limit) : ofTokens limit tokens = ofTokens depth tokens :=
    ((ofTokens_tooDeep_or_eq le).resolve_left enough).symm
  refine ⟨depth, by omega, by omega, fun limit below => ?_, ofTokens depth tokens, ?_, settled⟩
  · by_cases nonpos : limit ≤ 0
    · exact ofTokens_of_nonpos nonpos
    · obtain ⟨levels, rfl⟩ := Int.eq_ofNat_of_zero_le (show 0 ≤ limit by omega)
      exact not_not.mp (least levels (by omega))
  · rw [← settled most (by omega)]
    exact shallow

end Expr
end Uncertainty

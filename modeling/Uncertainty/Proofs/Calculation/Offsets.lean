import Uncertainty.Proofs.Calculation.Outcome

/-!
Offsets are for messages only. What is read from tokens, and what it comes to, is the same with
their offsets and without them, but for the offsets in it.
-/
namespace Uncertainty

namespace Token

/-- A token without its offset. -/
def bare (token : Token) : Token :=
  ⟨token.lexeme, none⟩

@[simp] theorem lexeme_bare (token : Token) : token.bare.lexeme = token.lexeme := rfl

theorem bare_eq_iff {a b : Token} : a.bare = b.bare ↔ a.lexeme = b.lexeme := by
  simp [bare]

theorem map_bare_eq_iff {tokens tokens' : List Token} :
    tokens.map bare = tokens'.map bare ↔ tokens.map lexeme = tokens'.map lexeme := by
  induction tokens generalizing tokens' with
  | nil => cases tokens' <;> simp
  | cons token tokens ih => cases tokens' <;> simp [bare_eq_iff, ih]

theorem headD_map_bare (tokens : List Token) :
    (tokens.map bare).headD endOfInput = (tokens.headD endOfInput).bare := by
  cases tokens <;> rfl

end Token

namespace Expr

mutual

/-- A tree without the offsets of its tokens. -/
def bare : Expr → Expr
  | atom token => atom token.bare
  | group operator operands => group operator.bare (bareAll operands)

def bareAll : List Expr → List Expr
  | [] => []
  | x :: xs => bare x :: bareAll xs

end

mutual

theorem same_iff_bare : (a b : Expr) → (same a b = true ↔ a.bare = b.bare)
  | atom a, atom b => by simp [same, bare, Token.bare_eq_iff]
  | group a xs, group b ys => by
    simp [same, bare, Token.bare_eq_iff, sameAll_iff_bare xs ys]
  | atom _, group _ _ | group _ _, atom _ => by simp [same, bare]

theorem sameAll_iff_bare :
    (xs ys : List Expr) → (sameAll xs ys = true ↔ bareAll xs = bareAll ys)
  | [], [] | [], _ :: _ | _ :: _, [] => by simp [sameAll, bareAll]
  | x :: xs, y :: ys => by simp [sameAll, bareAll, same_iff_bare x y, sameAll_iff_bare xs ys]

end

mutual

theorem bare_bare (tree : Expr) : tree.bare.bare = tree.bare := by
  cases tree with
  | atom token => rfl
  | group operator operands =>
    rw [bare, bare, bareAll_bareAll operands]
    rfl

theorem bareAll_bareAll (trees : List Expr) : bareAll (bareAll trees) = bareAll trees := by
  cases trees with
  | nil => rfl
  | cons tree trees => rw [bareAll, bareAll, bare_bare tree, bareAll_bareAll trees]

end

theorem same_bare (tree : Expr) : tree.bare.same tree :=
  (same_iff_bare _ _).mpr tree.bare_bare

end Expr

def SyntaxError.bare : SyntaxError → SyntaxError
  | unexpected token => unexpected token.bare
  | missingOperator paren => missingOperator paren.bare
  | unclosed paren found => unclosed paren.bare found.bare
  | unmatched paren => unmatched paren.bare

def ParseError.bare : ParseError → ParseError
  | malformed error => malformed error.bare
  | tooDeep limit => tooDeep limit
  | textless error => textless error

def EvaluationError.bare : EvaluationError → EvaluationError
  | notValue token => notValue token.bare
  | notOperator token => notOperator token.bare
  | operandCount operator count => operandCount operator.bare count
  | error => error

namespace Parser

variable {α α' β β' : Type} {limit : Int} {levels power rounds : Nat} {left : Expr}
variable {nested nested' : Nat → Parser Expr} {forget : α → α'} {forget' : β → β'}

/-- On tokens without offsets one parser does what another does with them, but for the offsets. -/
def Forgets (forget : α → α') (parser : Parser α) (parser' : Parser α') : Prop :=
  ∀ tokens, parser'.run (tokens.map Token.bare) = match parser.run tokens with
    | .ok a rest => .ok (forget a) (rest.map Token.bare)
    | .error error rest => .error error.bare (rest.map Token.bare)

variable {parser other : Parser α} {parser' other' : Parser α'}
variable {next : α → Parser β} {next' : α' → Parser β'}

theorem Forgets.pure (a : α) : Forgets forget (pure a) (pure (forget a)) :=
  fun _ => rfl

theorem Forgets.bind (first : Forgets forget parser parser')
    (second : ∀ a, Forgets forget' (next a) (next' (forget a))) :
    Forgets forget' (parser >>= next) (parser' >>= next') := by
  intro tokens
  rw [EStateM.run_bind, EStateM.run_bind, first tokens]
  cases parser.run tokens with
  | ok a rest => exact second a rest
  | error error rest => rfl

theorem Forgets.ite {condition : Prop} [Decidable condition] (first : Forgets forget parser parser')
    (second : Forgets forget other other') :
    Forgets forget (if condition then parser else other)
      (if condition then parser' else other') := by
  split
  · exact first
  · exact second

theorem forgets_peek : Forgets Token.bare peek peek := by
  intro tokens
  rw [peek_run, peek_run, Token.headD_map_bare]

theorem forgets_next : Forgets Token.bare Parser.next Parser.next := by
  intro tokens
  rw [next_run, next_run, Token.headD_map_bare, ← List.map_tail]

theorem fault_bare (found : Token) (error : SyntaxError) :
    fault found.bare error.bare = (fault found error).bare := by
  rw [fault, fault, Token.lexeme_bare]
  cases found.lexeme.textless? <;> rfl

theorem forgets_failAt (found : Token) (error : SyntaxError) :
    Forgets forget (failAt found error) (failAt found.bare error.bare) := by
  intro tokens
  rw [failAt_run, failAt_run, fault_bare]

/-- Nothing behind a failure is reached. -/
theorem forgets_failAt_bind (found : Token) (error : SyntaxError) {next : α → Parser β}
    {next' : α → Parser β'} :
    Forgets forget' (failAt found error >>= next) (failAt found.bare error.bare >>= next') := by
  intro tokens
  rw [EStateM.run_bind, EStateM.run_bind, failAt_run, failAt_run, fault_bare]

theorem forgets_operand (inner : ∀ power, Forgets Expr.bare (nested power) (nested' power)) :
    Forgets Expr.bare (operand nested) (operand nested') := by
  refine forgets_next.bind fun token => ?_
  dsimp only [Token.lexeme_bare]
  refine .ite (.pure (Expr.atom token)) ?_
  split
  case h_1 =>
    refine (inner 0).bind fun tree => forgets_next.bind fun closing => ?_
    exact .ite (.pure _) (forgets_failAt closing (.unclosed token closing))
  case h_2 => exact (inner _).bind fun tree => .pure (Expr.group token [tree])
  case h_3 => exact forgets_failAt token (.unexpected token)

theorem forgets_extend (inner : ∀ power, Forgets Expr.bare (nested power) (nested' power)) :
    Forgets Expr.bare (extend nested power rounds left)
      (extend nested' power rounds left.bare) := by
  induction rounds generalizing left with
  | zero => exact .pure left
  | succ rounds ih =>
    refine forgets_peek.bind fun token => ?_
    dsimp only [Token.lexeme_bare]
    refine .ite (forgets_failAt_bind token (.missingOperator token)) ?_
    refine .ite (forgets_failAt_bind token (.unexpected token)) ?_
    split
    case h_1 => exact .pure left
    case h_2 operator _ =>
      refine .ite (.pure left) (forgets_next.bind fun sign => ?_)
      exact (inner operator.rightPower).bind fun right => ih

theorem forgets_expression (levels power : Nat) :
    Forgets Expr.bare (expression limit levels power) (expression limit levels power) := by
  induction levels generalizing power with
  | zero => exact fun _ => rfl
  | succ levels ih =>
    have looks : Forgets (List.map Token.bare) (get : Parser (List Token)) get := fun _ => rfl
    refine (forgets_operand ih).bind fun left => looks.bind fun tokens => ?_
    rw [List.length_map]
    exact forgets_extend ih

theorem forgets_whole : Forgets Expr.bare (whole limit) (whole limit) := by
  refine (forgets_expression _ _).bind fun tree => forgets_peek.bind fun trailing => ?_
  dsimp only [Token.lexeme_bare]
  split
  · exact .pure tree
  · exact forgets_failAt trailing (.unmatched trailing)
  · exact forgets_failAt trailing (.unexpected trailing)

end Parser

namespace Token

theorem value_bare (token : Token) : token.bare.value = token.value.mapError .bare := by
  have number (text : String) : numberValue text = (numberValue text).mapError .bare := by
    unfold numberValue
    cases Binary64.ofText? text <;> rfl
  unfold value
  rw [lexeme_bare]
  cases token.lexeme with
  | number literal => exact number literal.toText
  | symbol symbol => cases symbol <;> rfl
  | data integral fractional =>
    dsimp only
    cases (Lexeme.data integral fractional).text? with
    | ok text => exact number text
    | error error => rfl

theorem operator_bare (token : Token) : token.bare.operator = token.operator.mapError .bare := by
  unfold operator
  rw [lexeme_bare]
  cases Operator.ofLexeme? token.lexeme with
  | some operator => rfl
  | none => cases token.lexeme.textless? <;> rfl

theorem binary_bare (token : Token) (operands : List Value) :
    token.bare.binary operands = (token.binary operands).mapError .bare := by
  unfold binary
  rw [operator_bare]
  cases token.operator with
  | error error => rfl
  | ok operator =>
    dsimp only [bind, Except.bind, Except.mapError]
    split
    case h_1 x y => cases operator.apply x y <;> rfl
    case h_2 => rfl

theorem combine_bare (token : Token) (operands : List Value) :
    token.bare.combine operands = (token.combine operands).mapError .bare := by
  unfold combine
  rw [lexeme_bare]
  split
  case h_1 x =>
    split
    case isTrue => rfl
    case isFalse => exact token.binary_bare [x]
  case h_2 => exact token.binary_bare operands

end Token

namespace Expr

mutual

theorem meaning_bare (tree : Expr) : tree.bare.meaning = tree.meaning.mapError .bare := by
  cases tree with
  | atom token => exact token.value_bare
  | group operator operands =>
    rw [bare, meaning, meaning, meanings_bare operands]
    cases meanings operands with
    | error error => rfl
    | ok values => exact operator.combine_bare values

theorem meanings_bare (trees : List Expr) :
    meanings (bareAll trees) = (meanings trees).mapError .bare := by
  cases trees with
  | nil => rfl
  | cons x xs =>
    rw [bareAll, meanings, meanings, meaning_bare x, meanings_bare xs]
    cases meaning x with
    | error error => rfl
    | ok value => cases meanings xs <;> rfl

end

variable {limit : Int} {tokens tokens' : List Token}

theorem ofTokens_bare : (ofTokens limit (tokens.map Token.bare)).1 =
    ((ofTokens limit tokens).1.map bare).mapError .bare := by
  unfold ofTokens
  rw [Parser.forgets_whole tokens]
  cases (Parser.whole limit).run tokens <;> rfl

theorem evaluate_bare (tree : Expr) : tree.bare.evaluate = tree.evaluate.mapError .bare := by
  rw [evaluate_computes, evaluate_computes, meaning_bare]

/-- Tokens with the same lexemes make the same tree, or fail in the same way. -/
theorem ofTokens_of_lexemes (same : tokens.map Token.lexeme = tokens'.map Token.lexeme)
    (limit : Int) :
    (∃ tree tree', (ofTokens limit tokens).1 = .ok tree ∧ (ofTokens limit tokens').1 = .ok tree' ∧
      tree.bare = tree'.bare) ∨
    ∃ error error', (ofTokens limit tokens).1 = .error error ∧
      (ofTokens limit tokens').1 = .error error' ∧ error.bare = error'.bare := by
  have outcomes : ((ofTokens limit tokens).1.map bare).mapError ParseError.bare =
      ((ofTokens limit tokens').1.map bare).mapError .bare := by
    rw [← ofTokens_bare, ← ofTokens_bare, Token.map_bare_eq_iff.mpr same]
  cases parsed : (ofTokens limit tokens).1 with
  | ok tree =>
    cases parsed' : (ofTokens limit tokens').1 with
    | ok tree' =>
      rw [parsed, parsed'] at outcomes
      exact .inl ⟨tree, tree', rfl, rfl, Except.ok.inj outcomes⟩
    | error error' =>
      rw [parsed, parsed'] at outcomes
      cases outcomes
  | error error =>
    cases parsed' : (ofTokens limit tokens').1 with
    | ok tree' =>
      rw [parsed, parsed'] at outcomes
      cases outcomes
    | error error' =>
      rw [parsed, parsed'] at outcomes
      exact .inr ⟨error, error', rfl, rfl, Except.error.inj outcomes⟩

/-- One tree with different offsets has one value, or is undefined for one reason. -/
theorem evaluate_of_bare {tree tree' : Expr} (same : tree.bare = tree'.bare) :
    tree.evaluate.mapError EvaluationError.bare = tree'.evaluate.mapError .bare := by
  rw [← evaluate_bare, ← evaluate_bare, same]

end Expr

theorem ParseError.category_of_bare {error error' : ParseError} (same : error.bare = error'.bare) :
    (Failure.parsing error).category = (Failure.parsing error').category := by
  cases error <;> cases error' <;> first | rfl | cases same

end Uncertainty

import Uncertainty.Proofs.Expr.Grammar

/-!
Reading by binding powers, as a relation between tokens and phrases that knows no limit of depth. It
is deterministic, and with the weakest power it reads exactly what the grammar derives; so the
grammar is unambiguous.
-/
namespace Uncertainty

namespace Category

/-- Read with a power up to this one, a phrase of the category comes out whole. -/
def readPower : Category → Nat
  | sum => 1
  | product => 3
  | power => 5
  | uncertain => 7
  | unary => 9

/-- An operator that binds weaker than this one ends a phrase of the category. -/
def stopPower : Category → Nat
  | sum => 2
  | product => 4
  | power => 5
  | uncertain => 8
  | unary => 9

theorem readPower_mono {loose tight : Category} (step : loose.tighter? = some tight) :
    loose.readPower ≤ tight.readPower := by
  cases loose <;> cases step <;> decide

theorem stopPower_mono {loose tight : Category} (step : loose.tighter? = some tight) :
    loose.stopPower ≤ tight.stopPower := by
  cases loose <;> cases step <;> decide

end Category

namespace Operator

/-! What the binding powers have to do with the categories. -/

theorem leftPower_lt_negationPower (operator : Operator) :
    operator.leftPower < negationPower := by
  cases operator <;> decide

theorem readPower_le_leftCategory (operator : Operator) :
    operator.category.readPower ≤ operator.leftCategory.readPower := by
  cases operator <;> decide

theorem readPower_le_leftPower (operator : Operator) :
    operator.category.readPower ≤ operator.leftPower := by
  cases operator <;> decide

theorem leftPower_lt_stopPower (operator : Operator) :
    operator.leftPower < operator.leftCategory.stopPower := by
  cases operator <;> decide

theorem rightPower_le_readPower (operator : Operator) :
    operator.rightPower ≤ operator.rightCategory.readPower := by
  cases operator <;> decide

theorem stopPower_category (operator : Operator) :
    operator.category.stopPower = operator.rightPower := by
  cases operator <;> rfl

theorem stopPower_le_rightCategory (operator : Operator) :
    operator.category.stopPower ≤ operator.rightCategory.stopPower := by
  cases operator <;> decide

/-- An operator that does not end a phrase of a category takes it as its left operand. -/
theorem rank_leftCategory_le {operator : Operator} {category : Category}
    (binds : operator.leftPower < category.stopPower) :
    operator.leftCategory.rank ≤ category.rank := by
  revert binds
  cases operator <;> cases category <;> decide

theorem rank_rightCategory_le {outer inner : Operator} (binds : outer.rightPower ≤ inner.leftPower) :
    outer.rightCategory.rank ≤ inner.category.rank := by
  revert binds
  cases outer <;> cases inner <;> decide

end Operator

/-- Where a phrase ends whose operators bind at least with `power`: at the end, or at a token that
can stand behind an operand and does not bind that tightly. -/
def Stops (power : Nat) (tokens : List Token) : Prop :=
  ∀ token ∈ tokens.head?, token.lexeme ≠ .symbol .leftParen ∧ token.lexeme.isAtom = false ∧
    ∀ operator, Operator.ofLexeme? token.lexeme = some operator → operator.leftPower < power

variable {power weaker : Nat} {tokens following rest rest' : List Token}
variable {left : Option Phrase} {whole whole' : Phrase} {sign closing : Token} {operator : Operator}

theorem Stops.mono (stops : Stops weaker tokens) (le : weaker ≤ power) : Stops power tokens := by
  intro token member
  obtain ⟨noParen, noAtom, binds⟩ := stops token member
  exact ⟨noParen, noAtom, fun operator spelled => Nat.lt_of_lt_of_le (binds operator spelled) le⟩

theorem stops_nil : Stops power [] := by
  intro token member
  cases member

theorem stops_operator (spelled : Operator.ofLexeme? sign.lexeme = some operator)
    (binds : operator.leftPower < power) : Stops power (sign :: tokens) := by
  intro token member
  obtain rfl := Option.some.inj member
  refine ⟨?_, ?_, ?_⟩
  · intro opens
    rw [opens] at spelled
    cases spelled
  · cases shape : sign.lexeme with
    | symbol symbol => cases symbol <;> first | rfl | (rw [shape] at spelled; cases spelled)
    | number | data => rw [shape] at spelled; cases spelled
  · intro other spelled'
    rw [spelled] at spelled'
    cases spelled'
    exact binds

theorem stops_of_noOperator {token : Token} (noParen : token.lexeme ≠ .symbol .leftParen)
    (noAtom : token.lexeme.isAtom = false) (noOperator : Operator.ofLexeme? token.lexeme = none) :
    Stops power (token :: tokens) := by
  intro other member
  obtain rfl := Option.some.inj member
  refine ⟨noParen, noAtom, fun operator spelled => ?_⟩
  rw [noOperator] at spelled
  cases spelled

theorem stops_closing (closes : closing.lexeme = .symbol .rightParen) :
    Stops power (closing :: tokens) := by
  apply stops_of_noOperator <;> rw [closes]
  · decide
  · rfl
  · rfl

theorem stops_end {token : Token} (ends : token.lexeme = .symbol .endOfInput) :
    Stops power (token :: tokens) := by
  apply stops_of_noOperator <;> rw [ends]
  · decide
  · rfl
  · rfl

theorem stops_or_goesOn (power : Nat) (token : Token) (tokens : List Token) :
    Stops power (token :: tokens) ∨ token.lexeme = .symbol .leftParen ∨ token.lexeme.isAtom ∨
      ∃ operator, Operator.ofLexeme? token.lexeme = some operator ∧ power ≤ operator.leftPower := by
  by_cases opens : token.lexeme = .symbol .leftParen
  · exact .inr (.inl opens)
  cases isAtom : token.lexeme.isAtom with
  | true => exact .inr (.inr (.inl rfl))
  | false =>
    cases spelled : Operator.ofLexeme? token.lexeme with
    | none => exact .inl (stops_of_noOperator opens isAtom spelled)
    | some operator =>
      by_cases binds : power ≤ operator.leftPower
      · exact .inr (.inr (.inr ⟨operator, rfl, binds⟩))
      · exact .inl (stops_operator spelled (Nat.not_le.mp binds))

theorem not_stops_of_le (spelled : Operator.ofLexeme? sign.lexeme = some operator)
    (binds : power ≤ operator.leftPower) : ¬ Stops power (sign :: tokens) := by
  intro stops
  have := (stops sign rfl).2.2 operator spelled
  omega

/-- `Reads power left tokens whole rest`: behind the operand `left`, or from the start if there is
none yet, reading takes `tokens` up to `rest` and makes `whole` of them. -/
inductive Reads : Nat → Option Phrase → List Token → Phrase → List Token → Prop where
  | atom {power : Nat} {token : Token} {tokens rest : List Token} {whole : Phrase}
      (isAtom : token.lexeme.isAtom)
      (extended : Reads power (some (.atom token)) tokens whole rest) :
      Reads power none (token :: tokens) whole rest
  | negation {power : Nat} {sign : Token} {tokens following rest : List Token}
      {operand whole : Phrase} (isMinus : sign.lexeme = .symbol .minus)
      (nested : Reads Operator.negationPower none tokens operand following)
      (extended : Reads power (some (.negation sign operand)) following whole rest) :
      Reads power none (sign :: tokens) whole rest
  | parens {power : Nat} {opening closing : Token} {tokens following rest : List Token}
      {inner whole : Phrase} (opens : opening.lexeme = .symbol .leftParen)
      (nested : Reads 0 none tokens inner (closing :: following))
      (closes : closing.lexeme = .symbol .rightParen)
      (extended : Reads power (some (.parens opening inner closing)) following whole rest) :
      Reads power none (opening :: tokens) whole rest
  | stop {power : Nat} {tokens : List Token} {left : Phrase} (stops : Stops power tokens) :
      Reads power (some left) tokens left tokens
  | step {power : Nat} {operator : Operator} {sign : Token} {tokens following rest : List Token}
      {left right whole : Phrase} (spelled : Operator.ofLexeme? sign.lexeme = some operator)
      (binds : power ≤ operator.leftPower)
      (nested : Reads operator.rightPower none tokens right following)
      (extended : Reads power (some (.infixed left sign right)) following whole rest) :
      Reads power (some left) (sign :: tokens) whole rest

namespace Reads

theorem unique (first : Reads power left tokens whole rest)
    (second : Reads power left tokens whole' rest') : whole = whole' ∧ rest = rest' := by
  induction first generalizing whole' rest' with
  | atom isAtom extended ih =>
    cases second with
    | atom _ extended' => exact ih extended'
    | negation isMinus => simp [isMinus, Lexeme.isAtom] at isAtom
    | parens opens => simp [opens, Lexeme.isAtom] at isAtom
  | negation isMinus nested extended ihNested ihExtended =>
    cases second with
    | atom isAtom => simp [isMinus, Lexeme.isAtom] at isAtom
    | negation _ nested' extended' =>
      obtain ⟨rfl, rfl⟩ := ihNested nested'
      exact ihExtended extended'
    | parens opens => simp [isMinus] at opens
  | parens opens nested closes extended ihNested ihExtended =>
    cases second with
    | atom isAtom => simp [opens, Lexeme.isAtom] at isAtom
    | negation isMinus => simp [opens] at isMinus
    | parens _ nested' _ extended' =>
      obtain ⟨rfl, same⟩ := ihNested nested'
      obtain ⟨rfl, rfl⟩ := List.cons.inj same
      exact ihExtended extended'
  | stop stops =>
    cases second with
    | stop => exact ⟨rfl, rfl⟩
    | step spelled binds => exact absurd stops (not_stops_of_le spelled binds)
  | step spelled binds nested extended ihNested ihExtended =>
    cases second with
    | stop stops => exact absurd stops (not_stops_of_le spelled binds)
    | step spelled' _ nested' extended' =>
      rw [spelled] at spelled'
      cases spelled'
      obtain ⟨rfl, rfl⟩ := ihNested nested'
      exact ihExtended extended'

theorem yield_append (reads : Reads power left tokens whole rest) :
    left.elim [] Phrase.yield ++ tokens = whole.yield ++ rest := by
  induction reads with
  | atom _ _ ih => exact ih
  | negation _ _ _ ihNested ih =>
    rw [← ih]
    simpa [Phrase.yield] using ihNested
  | parens _ _ _ _ ihNested ih =>
    rw [← ih]
    simpa [Phrase.yield] using ihNested
  | stop => rfl
  | step _ _ _ _ ihNested ih =>
    rw [← ih]
    simpa [Phrase.yield] using ihNested

theorem length_le (reads : Reads power none tokens whole rest) : rest.length ≤ tokens.length := by
  have same := congrArg List.length reads.yield_append
  simp only [Option.elim_none, List.nil_append, List.length_append] at same
  omega

/-- What has been read nests at least as deeply as the operand that reading began with. -/
theorem depth_le (reads : Reads power left tokens whole rest) :
    left.elim 0 Phrase.depth ≤ whole.depth := by
  induction reads with
  | atom | negation | parens => exact Nat.zero_le _
  | stop => exact Nat.le_refl _
  | step _ _ _ _ _ ih => exact Nat.le_trans (Nat.le_max_left _ _) ih

theorem stops (reads : Reads power left tokens whole rest) : Stops power rest := by
  induction reads with
  | stop stops => exact stops
  | atom _ _ ih | negation _ _ _ _ ih | parens _ _ _ _ _ ih | step _ _ _ _ _ ih => exact ih

end Reads

theorem Derivation.reads {category : Category} (derivation : Derivation category)
    (within : power ≤ category.readPower) (stops : Stops category.stopPower following)
    (extended : Reads power (some derivation.phrase) following whole rest) :
    Reads power none (derivation.yield ++ following) whole rest := by
  induction derivation generalizing power following whole rest with
  | only step inner ih =>
    have within' := Nat.le_trans within (Category.readPower_mono step)
    exact ih within' (stops.mono (Category.stopPower_mono step)) extended
  | infixed operator rule left sign spelled right ihLeft ihRight =>
    subst rule
    have stopsRight := stops.mono operator.stopPower_le_rightCategory
    rw [operator.stopPower_category] at stops
    have readsRight := ihRight operator.rightPower_le_readPower stopsRight (.stop stops)
    have readsSign : Reads power (some left.phrase) (sign :: (right.yield ++ following)) whole rest :=
      .step spelled (Nat.le_trans within operator.readPower_le_leftPower) readsRight extended
    have readsLeft := ihLeft (Nat.le_trans within operator.readPower_le_leftCategory)
      (stops_operator spelled operator.leftPower_lt_stopPower) readsSign
    simpa [yield, phrase, Phrase.yield] using readsLeft
  | atom token isAtom => exact .atom isAtom extended
  | negation sign isMinus operand ih =>
    exact .negation isMinus (ih (Nat.le_refl _) stops (.stop stops)) extended
  | parens opening opens inner closing closes ih =>
    have readsInner : Reads 0 none (inner.yield ++ closing :: following) inner.phrase
        (closing :: following) :=
      ih (Nat.zero_le _) (stops_closing closes) (.stop (stops_closing closes))
    simpa [yield, phrase, Phrase.yield] using Reads.parens opens readsInner closes extended

namespace Reads

theorem stops_unary {left : Phrase} (reads : Reads power (some left) tokens whole rest) :
    Stops Category.unary.stopPower tokens := by
  cases reads with
  | stop stops =>
    intro token member
    obtain ⟨noParen, noAtom, _⟩ := stops token member
    exact ⟨noParen, noAtom, fun operator _ => operator.leftPower_lt_negationPower⟩
  | step spelled => exact stops_operator spelled (Operator.leftPower_lt_negationPower _)

/-- What is read is derived by every category that the operators read belong to. The operand read so
far may be of a tighter category, as long as the next operator can take it as its left operand. -/
theorem exists_derivation (reads : Reads power left tokens whole rest) (goal : Category)
    (admits : ∀ operator : Operator, power ≤ operator.leftPower →
      goal.rank ≤ operator.category.rank) :
    match left with
    | none => ∃ derivation : Derivation goal, derivation.phrase = whole
    | some left => ∀ (category : Category) (derivation : Derivation category),
        derivation.phrase = left → goal.rank ≤ category.rank → Stops category.stopPower tokens →
          ∃ derivation : Derivation goal, derivation.phrase = whole := by
  have noneTighter (operator : Operator) (binds : Operator.negationPower ≤ operator.leftPower) :
      Category.unary.rank ≤ operator.category.rank := by
    have := operator.leftPower_lt_negationPower
    omega
  induction reads generalizing goal with
  | atom isAtom extended ih =>
    exact ih goal admits _ (.atom _ isAtom) rfl goal.rank_le extended.stops_unary
  | negation isMinus nested extended ihNested ih =>
    obtain ⟨operand, rfl⟩ := ihNested .unary noneTighter
    exact ih goal admits _ (.negation _ isMinus operand) rfl goal.rank_le extended.stops_unary
  | parens opens nested closes extended ihNested ih =>
    obtain ⟨inner, rfl⟩ := ihNested .sum fun _ _ => Nat.zero_le _
    exact ih goal admits _ (.parens _ opens inner _ closes) rfl goal.rank_le
      extended.stops_unary
  | stop stops =>
    rintro category derivation rfl le -
    exact derivation.exists_loosened le
  | @step power operator sign tokens following rest left right whole spelled binds nested extended
      ihNested ih =>
    rintro category derivation rfl le stops
    -- the operator did not stop the operand, so it is not looser than the operator takes on its left
    have takes := Operator.rank_leftCategory_le ((stops sign rfl).2.2 operator spelled)
    obtain ⟨leftOperand, sameLeft⟩ := derivation.exists_loosened takes
    obtain ⟨rightOperand, rfl⟩ := ihNested operator.rightCategory
      fun inner => Operator.rank_rightCategory_le
    have stopsRight := nested.stops
    rw [← operator.stopPower_category] at stopsRight
    exact ih goal admits operator.category
      (.infixed operator rfl leftOperand sign spelled rightOperand)
      (by rw [Derivation.phrase, sameLeft]) (admits operator binds) stopsRight

end Reads

/-- Read with the weakest power, tokens give exactly what the grammar derives. -/
theorem reads_iff_derivation : Reads 0 none tokens whole rest ↔
    Stops 0 rest ∧ ∃ derivation : Derivation .sum,
      derivation.phrase = whole ∧ tokens = derivation.yield ++ rest := by
  constructor
  · intro reads
    obtain ⟨derivation, rfl⟩ := reads.exists_derivation .sum fun _ _ => Nat.zero_le _
    exact ⟨reads.stops, derivation, rfl, reads.yield_append⟩
  · rintro ⟨stops, derivation, rfl, rfl⟩
    exact derivation.reads (Nat.zero_le _) (stops.mono (Nat.zero_le _)) (.stop stops)

/-- The grammar is unambiguous. -/
theorem Derivation.yield_injective {a b : Derivation .sum} (same : a.yield = b.yield) : a = b := by
  have readsA := reads_iff_derivation.mpr ⟨stops_nil, a, rfl, (List.append_nil _).symm⟩
  have readsB := reads_iff_derivation.mpr ⟨stops_nil, b, rfl, (List.append_nil _).symm⟩
  rw [same] at readsA
  exact phrase_injective (readsA.unique readsB).1

end Uncertainty

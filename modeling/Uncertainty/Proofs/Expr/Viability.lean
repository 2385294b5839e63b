import Uncertainty.Proofs.Expr.Place

/-!
Where a syntax error is found. The parser fails at the first token behind which no tokens can make
an expression, and at the end only if more tokens could make one.
-/
namespace Uncertainty

namespace Expr

open Place (Leads)

variable {limit : Int} {tokens front back unread : List Token} {offset : Option Nat} {token : Token}
variable {place : Place} {error : SyntaxError}

/-- Tokens that are an expression within some limit of depth. -/
def Parses (tokens : List Token) : Prop :=
  ∃ limit tree, (ofTokens limit (tokens ++ [.endOfInput])).1 = .ok tree

/-- Tokens that some more tokens make an expression. -/
def Viable (front : List Token) : Prop :=
  ∃ more, (∀ token ∈ more, token.lexeme ≠ .symbol .endOfInput) ∧ Parses (front ++ more)

/-- An operand is expected at the start, and behind each token that ends none. -/
def ExpectsOperand (front : List Token) : Prop :=
  ∀ last ∈ front.getLast?, last.lexeme.isAtom = false ∧ last.lexeme ≠ .symbol .rightParen

/-- The open parentheses behind a token, the last first, which is what a closing one matches. -/
def track (opened : List Token) (token : Token) : List Token :=
  if token.lexeme = .symbol .leftParen then token :: opened
  else if token.lexeme = .symbol .rightParen then opened.tail
  else opened

/-- The opening parentheses that have no matching one, the last first. -/
def openParens (tokens : List Token) : List Token :=
  tokens.foldl track []

theorem parses_iff (inner : ∀ token ∈ tokens, token.lexeme ≠ .symbol .endOfInput) :
    Parses tokens ↔ (Place.operandDue []).after? tokens = some (.operandRead []) := by
  constructor
  · rintro ⟨limit, tree, parsed⟩
    rw [ofTokens] at parsed
    cases ran : (Parser.whole limit).run (tokens ++ [.endOfInput]) with
    | error => simp [ran] at parsed
    | ok tree rest =>
      obtain ⟨ends, front, same, reached⟩ := Parser.whole_leads.of_ok ran
      have innerFront := Place.ne_end_of_after? reached
      rwa [eq_yield_of_ends inner innerFront ends same]
  · intro accepted
    let limit : Int := tokens.length + 2
    have enough : (Parser.innerCount (tokens ++ [.endOfInput]) : Int) < limit := by
      have := Parser.innerCount_le (tokens ++ [.endOfInput])
      rw [List.length_append, List.length_singleton] at this
      omega
    refine ⟨limit, ?_⟩
    rw [ofTokens]
    cases ran : (Parser.whole limit).run (tokens ++ [.endOfInput]) with
    | ok tree rest => exact ⟨tree, rfl⟩
    | error error unread =>
      rcases Parser.whole_leads.of_error ran with ⟨deep, isDeep⟩ | ⟨halted, back, leads, refuses⟩
      · exact absurd isDeep ((Parser.whole_shallow enough).of_error ran deep)
      · obtain ⟨front, more, rfl, rfl, reached⟩ := leads.before_end
        have refused := refuses.next?_eq_none
        rw [Place.after?_append, reached, Option.bind_some] at accepted
        cases more with
        | cons found more =>
          rw [List.cons_append, List.headD_cons] at refused
          rw [Place.after?, List.foldlM_cons, refused] at accepted
          cases accepted
        | nil =>
          cases accepted
          cases refuses with
          | missingOperator isFound opens => subst isFound; cases opens
          | adjacent isFound isAtom => subst isFound; cases isAtom
          | unmatched isFound closes => subst isFound; cases closes

theorem viable_iff (inner : ∀ token ∈ front, token.lexeme ≠ .symbol .endOfInput) :
    Viable front ↔ ∃ place, (Place.operandDue []).after? front = some place := by
  constructor
  · rintro ⟨more, innerMore, parses⟩
    have innerAll : ∀ token ∈ front ++ more, token.lexeme ≠ .symbol .endOfInput :=
      fun token member => (List.mem_append.mp member).elim (inner token) (innerMore token)
    rw [parses_iff innerAll, Place.after?_append] at parses
    obtain ⟨place, reached, -⟩ := Option.bind_eq_some_iff.mp parses
    exact ⟨place, reached⟩
  · rintro ⟨place, reached⟩
    have accepted :
        (Place.operandDue []).after? (front ++ place.closing) = some (.operandRead []) := by
      rw [Place.after?_append, reached]
      exact place.after?_closing
    refine ⟨place.closing, Place.ne_end_of_after? place.after?_closing, ?_⟩
    exact (parses_iff (Place.ne_end_of_after? accepted)).mpr accepted

theorem track_of_noParen {opened : List Token}
    (noParen : token.lexeme ≠ .symbol .leftParen ∧ token.lexeme ≠ .symbol .rightParen) :
    track opened token = opened := by
  simp [track, noParen]

theorem opened_next? {place' : Place} (step : place.next? token = some place') :
    place'.opened = track place.opened token := by
  rcases Place.next?_eq_some step with
    ⟨-, ⟨isAtom, rfl⟩ | ⟨opens, rfl⟩ | ⟨isMinus, rfl⟩⟩ |
    ⟨-, ⟨closes, rfl⟩ | ⟨operator, spelled, rfl⟩⟩
  · exact (track_of_noParen (noParen_of_isAtom isAtom)).symm
  · simp [track, opens, Place.opened]
  · simp [track, isMinus, Place.opened]
  · simp [track, closes, Place.opened]
  · exact (track_of_noParen (noParen_of_operator spelled)).symm

theorem opened_after? {place' : Place} (reached : place.after? front = some place') :
    place'.opened = front.foldl track place.opened := by
  induction front generalizing place with
  | nil =>
    cases reached
    rfl
  | cons token front ih =>
    rw [Place.after?, List.foldlM_cons] at reached
    obtain ⟨behind, step, reached⟩ := Option.bind_eq_some_iff.mp reached
    rw [List.foldl_cons, ← opened_next? step]
    exact ih reached

theorem expectsOperand_iff (reached : (Place.operandDue []).after? front = some place) :
    ExpectsOperand front ↔ place = .operandDue place.opened := by
  rcases List.eq_nil_or_concat front with rfl | ⟨before, last, rfl⟩
  · cases reached
    exact iff_of_true nofun rfl
  · rw [List.concat_eq_append] at reached ⊢
    have seen : ExpectsOperand (before ++ [last]) ↔
        last.lexeme.isAtom = false ∧ last.lexeme ≠ .symbol .rightParen := by
      simp [ExpectsOperand]
    rw [Place.after?_append] at reached
    obtain ⟨behind, -, step⟩ := Option.bind_eq_some_iff.mp reached
    have step : behind.next? last = some place := by simpa [Place.after?] using step
    rw [seen]
    rcases Place.next?_eq_some step with
      ⟨-, ⟨isAtom, rfl⟩ | ⟨opens, rfl⟩ | ⟨isMinus, rfl⟩⟩ |
      ⟨-, ⟨closes, rfl⟩ | ⟨operator, spelled, rfl⟩⟩
    · simp [isAtom, Place.opened]
    · simp [opens, Lexeme.isAtom, Place.opened]
    · simp [isMinus, Lexeme.isAtom, Place.opened]
    · simp [closes, Place.opened]
    · simp [isAtom_of_operator spelled, (noParen_of_operator spelled).2, Place.opened]

/-- A token is refused only where no tokens behind it can help. -/
theorem not_viable_of_refused {found : Token} (inner : found.lexeme ≠ .symbol .endOfInput)
    (reached : (Place.operandDue []).after? front = some place)
    (refused : place.next? found = none) : ¬ Viable (front ++ [found]) := by
  have innerAll : ∀ token ∈ front ++ [found], token.lexeme ≠ .symbol .endOfInput := by
    intro token member
    rcases List.mem_append.mp member with inFront | last
    · exact Place.ne_end_of_after? reached token inFront
    · rwa [List.mem_singleton.mp last]
  rw [viable_iff innerAll, Place.after?_append, reached]
  rintro ⟨behind, passed⟩
  simp [Place.after?, refused] at passed

theorem eq_of_fault {found : Token} {meant : SyntaxError}
    (same : Parser.fault found meant = .malformed error) : error = meant := by
  unfold Parser.fault at same
  cases textless : found.lexeme.textless? <;> simp [textless] at same
  exact same.symm

theorem refused_token {found : Token} {failure : ParseError}
    (refuses : place.Refuses (found :: back) failure unread) (isSyntax : failure = .malformed error)
    (inner : found.lexeme ≠ .symbol .endOfInput) :
    (error = .unexpected found ∨ error = .missingOperator found ∨ error = .unmatched found) ∧
      (place = .operandDue place.opened → unread = back) ∧
      (place ≠ .operandDue place.opened → unread = found :: back) := by
  cases refuses with
  | operand isFound =>
    cases isFound
    exact ⟨.inl (eq_of_fault isSyntax), fun _ => rfl, fun notDue => absurd rfl notDue⟩
  | missingOperator isFound =>
    cases isFound
    exact ⟨.inr (.inl (eq_of_fault isSyntax)), nofun, fun _ => rfl⟩
  | adjacent isFound =>
    cases isFound
    exact ⟨.inl (eq_of_fault isSyntax), nofun, fun _ => rfl⟩
  | unclosed isFound ends =>
    cases isFound
    exact absurd ends inner
  | unmatched isFound =>
    cases isFound
    exact ⟨.inr (.inr (eq_of_fault isSyntax)), nofun, fun _ => rfl⟩

theorem refused_end {found : Token} {failure : ParseError}
    (refuses : place.Refuses [found] failure unread) (isSyntax : failure = .malformed error)
    (ends : found.lexeme = .symbol .endOfInput) :
    place ≠ .operandRead [] ∧ unread = [] ∧
      (error = .unexpected found ∨
        ∃ paren, place.opened.head? = some paren ∧ error = .unclosed paren found) := by
  cases refuses with
  | operand isFound =>
    cases isFound
    exact ⟨nofun, rfl, .inl (eq_of_fault isSyntax)⟩
  | unclosed isFound =>
    cases isFound
    exact ⟨nofun, rfl, .inr ⟨_, rfl, eq_of_fault isSyntax⟩⟩
  | missingOperator isFound opens =>
    obtain rfl : found = _ := isFound
    rw [ends] at opens
    cases opens
  | adjacent isFound isAtom =>
    obtain rfl : found = _ := isFound
    rw [ends] at isAtom
    cases isAtom
  | unmatched isFound closes =>
    obtain rfl : found = _ := isFound
    rw [ends] at closes
    cases closes

theorem message_of_token {found : Token} (inner : found.lexeme ≠ .symbol .endOfInput)
    (names : error = .unexpected found ∨ error = .missingOperator found ∨
      error = .unmatched found) :
    error.message = s!"Unexpected token '{found.lexeme.text}' at position {found.position}" ∨
      error.message = s!"Missing operator before '(' at position {found.position}" ∨
      error.message = s!"Unmatched ')' at position {found.position}" := by
  rcases names with rfl | rfl | rfl
  · exact .inl (if_neg inner)
  · exact .inr (.inl rfl)
  · exact .inr (.inr rfl)

/-- A syntax error is found at the first token behind which no tokens can make an expression, or at
the end. The error names that token, which is read only if it stands for an operand. -/
theorem viable_of_ofTokens_malformed (limit : Int) (tokens : List Token) (offset : Option Nat)
    (inner : ∀ token ∈ tokens, token.lexeme ≠ .symbol .endOfInput) (error : SyntaxError)
    (unread : List Token)
    (failed : ofTokens limit (tokens ++ [⟨.symbol .endOfInput, offset⟩]) =
      (.error (.malformed error), unread)) :
    (∃ front found back, tokens = front ++ found :: back ∧
      Viable front ∧ ¬ Viable (front ++ [found]) ∧
      (error.message = s!"Unexpected token '{found.lexeme.text}' at position {found.position}" ∨
        error.message = s!"Missing operator before '(' at position {found.position}" ∨
        error.message = s!"Unmatched ')' at position {found.position}") ∧
      (ExpectsOperand front → unread = back ++ [⟨.symbol .endOfInput, offset⟩]) ∧
      (¬ ExpectsOperand front → unread = found :: back ++ [⟨.symbol .endOfInput, offset⟩])) ∨
    (Viable tokens ∧ ¬ Parses tokens ∧ unread = [] ∧
      (error.message = "Unexpected end of expression" ∨
        ∃ paren, (openParens tokens).head? = some paren ∧
          error.message =
            s!"Missing closing parenthesis for '(' at position {paren.position}, found " ++
              "end of input")) := by
  rw [ofTokens] at failed
  cases ran : (Parser.whole limit).run (tokens ++ [⟨.symbol .endOfInput, offset⟩]) with
  | ok => simp [ran] at failed
  | error failure left =>
    simp only [ran, Prod.mk.injEq, Except.error.injEq] at failed
    obtain ⟨rfl, rfl⟩ := failed
    rcases Parser.whole_leads.of_error ran with ⟨deep, isDeep⟩ | ⟨place, back, leads, refuses⟩
    · cases isDeep
    obtain ⟨front, more, rfl, rfl, reached⟩ := leads.before_end
    have innerFront := Place.ne_end_of_after? reached
    have viable : Viable front := (viable_iff innerFront).mpr ⟨place, reached⟩
    have expects := expectsOperand_iff reached
    have opened := opened_after? reached
    have refused := refuses.next?_eq_none
    cases more with
    | cons found more =>
      have innerFound := inner found (by simp)
      obtain ⟨names, ifDue, otherwise⟩ := refused_token refuses rfl innerFound
      have notViable := not_viable_of_refused innerFound reached refused
      refine .inl ⟨front, found, more, rfl, viable, notViable,
        message_of_token innerFound names, ?_, ?_⟩
      · exact fun due => ifDue (expects.mp due)
      · exact fun notDue => otherwise (mt expects.mpr notDue)
    | nil =>
      obtain ⟨unfinished, rfl, names⟩ := refused_end refuses rfl rfl
      rw [List.append_nil]
      refine .inr ⟨viable, ?_, rfl, ?_⟩
      · rw [parses_iff innerFront, reached]
        exact fun accepted => unfinished (Option.some.inj accepted)
      · rcases names with rfl | ⟨paren, isLast, rfl⟩
        · exact .inl rfl
        · refine .inr ⟨paren, ?_, rfl⟩
          rwa [opened] at isLast

/-- In `(1 2` the error is found at the second number, which is not read. -/
theorem exists_viable_of_adjacent_numbers :
    let one : Token := ⟨.number ⟨"1", ""⟩, some 1⟩
    let two : Token := ⟨.number ⟨"2", ""⟩, some 3⟩
    let tokens := [⟨.symbol .leftParen, some 0⟩, one, two]
    let ending : Token := ⟨.symbol .endOfInput, some 4⟩
    (∀ token ∈ tokens, token.lexeme ≠ .symbol .endOfInput) ∧
    ofTokens defaultDepth (tokens ++ [ending]) =
      (.error (.malformed (.unexpected two)), [two, ending]) ∧
    ∃ front found back, tokens = front ++ found :: back ∧ Viable front ∧
      ¬ Viable (front ++ [found]) := by
  refine ⟨by decide, rfl, ?_⟩
  rcases viable_of_ofTokens_malformed defaultDepth
      [⟨.symbol .leftParen, some 0⟩, ⟨.number ⟨"1", ""⟩, some 1⟩, ⟨.number ⟨"2", ""⟩, some 3⟩]
      (some 4) (by decide) _ _ rfl with
    ⟨front, found, back, same, viable, notViable, -⟩ | ⟨-, -, allRead, -⟩
  · exact ⟨front, found, back, same, viable, notViable⟩
  · cases allRead

end Expr
end Uncertainty

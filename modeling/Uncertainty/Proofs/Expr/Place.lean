import Uncertainty.Proofs.Expr.Depth

/-!
What may stand next behind some tokens of an expression. That depends on two things alone: whether
an operand is due, and which parentheses are open. The parser goes from place to place, whatever the
powers of the operators; it fails for its depth, or where what stands next may not stand there.
-/
namespace Uncertainty

section Kinds

variable {token : Token} {operator : Operator}

theorem isAtom_of_operator (spelled : Operator.ofLexeme? token.lexeme = some operator) :
    token.lexeme.isAtom = false := by
  have stops : Stops (operator.leftPower + 1) [token] :=
    stops_operator spelled (Nat.lt_succ_self _)
  exact (stops token rfl).2.1

theorem noParen_of_operator (spelled : Operator.ofLexeme? token.lexeme = some operator) :
    token.lexeme ≠ .symbol .leftParen ∧ token.lexeme ≠ .symbol .rightParen := by
  constructor
  all_goals
    intro paren
    rw [paren] at spelled
    cases spelled

theorem noParen_of_isAtom (isAtom : token.lexeme.isAtom) :
    token.lexeme ≠ .symbol .leftParen ∧ token.lexeme ≠ .symbol .rightParen := by
  constructor
  all_goals
    intro paren
    rw [paren] at isAtom
    cases isAtom

end Kinds

/-- Where the weakest power stops, the end of input or a closing parenthesis follows. -/
theorem Stops.ends_or_closes {tokens : List Token} (stops : Stops 0 tokens) :
    (tokens.headD .endOfInput).lexeme = .symbol .endOfInput ∨
      (tokens.headD .endOfInput).lexeme = .symbol .rightParen := by
  cases tokens with
  | nil => exact .inl rfl
  | cons token tokens =>
    obtain ⟨noParen, noAtom, noOperator⟩ := stops token rfl
    rw [List.headD_cons]
    cases shape : token.lexeme with
    | number | data => simp [shape, Lexeme.isAtom] at noAtom
    | symbol symbol =>
      rw [shape] at noParen noAtom noOperator
      cases symbol with
      | endOfInput => exact .inl rfl
      | rightParen => exact .inr rfl
      | leftParen => exact absurd rfl noParen
      | euler | pi => cases noAtom
      | _ => exact absurd (noOperator _ rfl) (Nat.not_lt_zero _)

/-- A place behind some tokens, with the parentheses that are open there, the innermost first. -/
inductive Place where
  | operandDue (opened : List Token)
  | operandRead (opened : List Token)

namespace Place

def opened : Place → List Token
  | operandDue opened | operandRead opened => opened

variable {place place' place'' : Place} {opened front back tokens rest unread : List Token}
variable {token sign : Token} {operator : Operator}

/-- The place behind a token, none if the token may not stand there. -/
def next? : Place → Token → Option Place
  | operandDue opened, token =>
    if token.lexeme.isAtom then some (operandRead opened)
    else if token.lexeme = .symbol .leftParen then some (operandDue (token :: opened))
    else if token.lexeme = .symbol .minus then some (operandDue opened)
    else none
  | operandRead opened, token =>
    if token.lexeme = .symbol .rightParen then
      match opened with
      | [] => none
      | _ :: outer => some (operandRead outer)
    else if (Operator.ofLexeme? token.lexeme).isSome then some (operandDue opened)
    else none

def after? (place : Place) (tokens : List Token) : Option Place :=
  tokens.foldlM next? place

theorem after?_append :
    place.after? (front ++ back) = (place.after? front).bind fun place => place.after? back :=
  List.foldlM_append

theorem next?_atom (isAtom : token.lexeme.isAtom) :
    (operandDue opened).next? token = some (operandRead opened) := by
  simp [next?, isAtom]

theorem next?_opening (opens : token.lexeme = .symbol .leftParen) :
    (operandDue opened).next? token = some (operandDue (token :: opened)) := by
  simp [next?, opens, Lexeme.isAtom]

theorem next?_minus (isMinus : token.lexeme = .symbol .minus) :
    (operandDue opened).next? token = some (operandDue opened) := by
  simp [next?, isMinus, Lexeme.isAtom]

theorem next?_closing (closes : token.lexeme = .symbol .rightParen) :
    (operandRead (sign :: opened)).next? token = some (operandRead opened) := by
  simp [next?, closes]

theorem next?_operator (spelled : Operator.ofLexeme? token.lexeme = some operator) :
    (operandRead opened).next? token = some (operandDue opened) := by
  simp [next?, (noParen_of_operator spelled).2, spelled]

theorem next?_adjacent (isAtom : token.lexeme.isAtom) :
    (operandRead opened).next? token = none := by
  cases spelled : Operator.ofLexeme? token.lexeme with
  | none => simp [next?, (noParen_of_isAtom isAtom).2, spelled]
  | some operator => simp [isAtom_of_operator spelled] at isAtom

theorem next?_end (ends : token.lexeme = .symbol .endOfInput) : place.next? token = none := by
  cases place <;> simp [next?, ends, Lexeme.isAtom, Operator.ofLexeme?, Operator.ofSymbol?]

/-- All that a token can do at a place. -/
theorem next?_eq_some (step : place.next? token = some place') :
    (place = operandDue place.opened ∧
      ((token.lexeme.isAtom ∧ place' = operandRead place.opened) ∨
      (token.lexeme = .symbol .leftParen ∧ place' = operandDue (token :: place.opened)) ∨
      (token.lexeme = .symbol .minus ∧ place' = operandDue place.opened))) ∨
    (place = operandRead place.opened ∧
      ((token.lexeme = .symbol .rightParen ∧ place' = operandRead place.opened.tail) ∨
      ∃ operator, Operator.ofLexeme? token.lexeme = some operator ∧
        place' = operandDue place.opened)) := by
  cases place with
  | operandDue opened =>
    refine .inl ⟨rfl, ?_⟩
    by_cases isAtom : token.lexeme.isAtom
    · rw [next?_atom isAtom] at step
      exact .inl ⟨isAtom, (Option.some.inj step).symm⟩
    by_cases opens : token.lexeme = .symbol .leftParen
    · rw [next?_opening opens] at step
      exact .inr (.inl ⟨opens, (Option.some.inj step).symm⟩)
    by_cases isMinus : token.lexeme = .symbol .minus
    · rw [next?_minus isMinus] at step
      exact .inr (.inr ⟨isMinus, (Option.some.inj step).symm⟩)
    · simp [next?, isAtom, opens, isMinus] at step
  | operandRead opened =>
    refine .inr ⟨rfl, ?_⟩
    by_cases closes : token.lexeme = .symbol .rightParen
    · cases opened with
      | nil => simp [next?, closes] at step
      | cons paren outer =>
        rw [next?_closing closes] at step
        exact .inl ⟨closes, (Option.some.inj step).symm⟩
    cases spelled : Operator.ofLexeme? token.lexeme with
    | some operator =>
      rw [next?_operator spelled] at step
      exact .inr ⟨operator, rfl, (Option.some.inj step).symm⟩
    | none => simp [next?, closes, spelled] at step

/-- `Leads place tokens place' rest`: from `place` the tokens lead to `place'` and leave `rest`. -/
def Leads (place : Place) (tokens : List Token) (place' : Place) (rest : List Token) : Prop :=
  ∃ front, tokens = front ++ rest ∧ place.after? front = some place'

theorem Leads.refl : Leads place tokens place tokens :=
  ⟨[], rfl, rfl⟩

theorem Leads.next (step : place.next? (tokens.headD .endOfInput) = some place') :
    Leads place tokens place' tokens.tail := by
  cases tokens with
  | nil =>
    rw [List.headD_nil, next?_end rfl] at step
    cases step
  | cons token tokens =>
    refine ⟨[token], rfl, ?_⟩
    rw [List.headD_cons] at step
    simp [after?, step]

theorem Leads.trans (first : Leads place tokens place' rest)
    (second : Leads place' rest place'' unread) : Leads place tokens place'' unread := by
  obtain ⟨front, rfl, reached⟩ := first
  obtain ⟨middle, rfl, reached'⟩ := second
  refine ⟨front ++ middle, (List.append_assoc ..).symm, ?_⟩
  rw [after?_append, reached]
  exact reached'

theorem Leads.length_le (leads : Leads place tokens place' rest) :
    rest.length ≤ tokens.length := by
  obtain ⟨front, rfl, -⟩ := leads
  rw [List.length_append]
  omega

/-- `Refuses place back error unread`: at `place` none may stand of what `back` begins with; the
error names it, or the parenthesis that should have been closed before the end, and `unread` is
left. -/
inductive Refuses : Place → List Token → ParseError → List Token → Prop where
  | operand {opened back : List Token} {found : Token} (isFound : back.headD .endOfInput = found)
      (refused : (operandDue opened).next? found = none) :
      Refuses (operandDue opened) back (Parser.fault found (.unexpected found)) back.tail
  | missingOperator {opened back : List Token} {found : Token}
      (isFound : back.headD .endOfInput = found) (opens : found.lexeme = .symbol .leftParen) :
      Refuses (operandRead opened) back (Parser.fault found (.missingOperator found)) back
  | adjacent {opened back : List Token} {found : Token} (isFound : back.headD .endOfInput = found)
      (isAtom : found.lexeme.isAtom) :
      Refuses (operandRead opened) back (Parser.fault found (.unexpected found)) back
  | unclosed {opened back : List Token} {paren found : Token}
      (isFound : back.headD .endOfInput = found) (ends : found.lexeme = .symbol .endOfInput) :
      Refuses (operandRead (paren :: opened)) back (Parser.fault found (.unclosed paren found))
        back.tail
  | unmatched {back : List Token} {found : Token} (isFound : back.headD .endOfInput = found)
      (closes : found.lexeme = .symbol .rightParen) :
      Refuses (operandRead []) back (Parser.fault found (.unmatched found)) back

theorem Refuses.next?_eq_none {error : ParseError} (refuses : Refuses place back error unread) :
    place.next? (back.headD .endOfInput) = none := by
  cases refuses with
  | operand isFound refused => rw [isFound, refused]
  | missingOperator isFound opens =>
    rw [isFound]
    simp [next?, opens, Operator.ofLexeme?, Operator.ofSymbol?]
  | adjacent isFound isAtom =>
    rw [isFound, next?_adjacent isAtom]
  | unclosed isFound ends => rw [isFound, next?_end ends]
  | unmatched isFound closes =>
    rw [isFound]
    simp [next?, closes]

end Place

namespace Parser

open Place (Leads)

variable {limit : Int} {power : Nat} {tokens : List Token} {left : Expr}
variable {nested : Nat → Parser Expr}

/-- How a parser may fail that begins at a place: for its depth, or where a token is refused. -/
def Halts (place : Place) (tokens : List Token) (error : ParseError) (unread : List Token) : Prop :=
  (∃ limit, error = .tooDeep limit) ∨
    ∃ halted back, Leads place tokens halted back ∧ halted.Refuses back error unread

theorem Halts.before {place place' : Place} {rest unread : List Token} {error : ParseError}
    (leads : Leads place tokens place' rest) (halts : Halts place' rest error unread) :
    Halts place tokens error unread := by
  rcases halts with deep | ⟨halted, back, leads', refuses⟩
  · exact .inl deep
  · exact .inr ⟨halted, back, leads.trans leads', refuses⟩

/-- A parser that reads an operand and what extends it, inside the parentheses that are open. -/
def Advances (power : Nat) (parser : Parser Expr) : Prop :=
  ∀ tokens opened, Ensures parser tokens
    (fun _ rest => Stops power rest ∧
      Leads (.operandDue opened) tokens (.operandRead opened) rest)
    (Halts (.operandDue opened) tokens)

theorem operand_leads (inner : ∀ power, Advances power (nested power)) (opened : List Token) :
    Ensures (operand nested) tokens
      (fun _ rest => Leads (.operandDue opened) tokens (.operandRead opened) rest)
      (Halts (.operandDue opened) tokens) := by
  refine ensures_operand rfl (fun isAtom => ?_) (fun opens => ?_) (fun isMinus => ?_)
    fun noAtom noParen noMinus => ?_
  · exact .next (Place.next?_atom isAtom)
  · have enters : Leads (.operandDue opened) tokens
        (.operandDue (tokens.headD .endOfInput :: opened)) tokens.tail :=
      .next (Place.next?_opening opens)
    refine (inner 0 _ (tokens.headD .endOfInput :: opened)).imp (fun tree rest => ?_)
      fun error unread halts => halts.before enters
    rintro ⟨stops, leads⟩
    have reached := enters.trans leads
    refine ⟨fun closes => ?_, fun unclosed => ?_⟩
    · exact reached.trans (.next (Place.next?_closing closes))
    · have ends := stops.ends_or_closes.resolve_right unclosed
      exact .inr ⟨_, rest, reached, .unclosed rfl ends⟩
  · have enters : Leads (.operandDue opened) tokens (.operandDue opened) tokens.tail :=
      .next (Place.next?_minus isMinus)
    refine (inner _ _ opened).imp (fun tree rest => ?_)
      fun error unread halts => halts.before enters
    rintro ⟨-, leads⟩
    exact enters.trans leads
  · refine .inr ⟨_, tokens, .refl, .operand rfl ?_⟩
    simp only [Place.next?, noAtom, noParen, noMinus, Bool.false_eq_true, ↓reduceIte]

/-- The invariant of the rounds: an operand has been read since the start. -/
theorem extend_leads {rest opened : List Token} (inner : ∀ power, Advances power (nested power))
    (leads : Leads (.operandDue opened) tokens (.operandRead opened) rest) :
    Ensures (extend nested power rest.length left) rest
      (fun _ rest => Stops power rest ∧
        Leads (.operandDue opened) tokens (.operandRead opened) rest)
      (Halts (.operandDue opened) tokens) := by
  refine ensures_extend
    (fun _ unread => Leads (.operandDue opened) tokens (.operandRead opened) unread)
    (Nat.le_refl _) leads (fun _ _ leads stops => ⟨stops, leads⟩) ?_ ?_ ?_
  · intro _ paren unread leads opens
    exact .inr ⟨_, _, leads, .missingOperator rfl opens⟩
  · intro _ found unread leads isAtom
    exact .inr ⟨_, _, leads, .adjacent rfl isAtom⟩
  · intro _ sign unread operator leads spelled _
    have enters : Leads (.operandDue opened) tokens (.operandDue opened) unread :=
      leads.trans (.next (Place.next?_operator spelled))
    refine (inner _ _ opened).imp (fun right rest => ?_)
      fun error unread halts => halts.before enters
    rintro ⟨-, leadsRight⟩
    exact ⟨leadsRight.length_le, enters.trans leadsRight⟩

theorem expression_advances (levels power : Nat) :
    Advances power (expression limit levels power) := by
  induction levels generalizing power with
  | zero => exact fun _ _ => .inl ⟨limit, rfl⟩
  | succ levels ih =>
    intro tokens opened
    exact ensures_expression ((operand_leads ih opened).mono fun _ _ leads => extend_leads ih leads)

theorem whole_leads : Ensures (whole limit) tokens
    (fun _ rest => (rest.headD .endOfInput).lexeme = .symbol .endOfInput ∧
      Leads (.operandDue []) tokens (.operandRead []) rest) (Halts (.operandDue []) tokens) := by
  apply ensures_whole
  refine (expression_advances _ _ _ []).mono fun tree rest => ?_
  rintro ⟨stops, leads⟩
  refine ⟨fun ends => ⟨ends, leads⟩, fun closes => ?_, fun noEnd noClosing => ?_⟩
  · exact .inr ⟨_, rest, leads, .unmatched rfl closes⟩
  · exact absurd stops.ends_or_closes (not_or.mpr ⟨noEnd, noClosing⟩)

end Parser

namespace Place

variable {place place' : Place} {front tokens back : List Token} {offset : Option Nat}

theorem ne_end_of_after? (reached : place.after? tokens = some place') :
    ∀ token ∈ tokens, token.lexeme ≠ .symbol .endOfInput := by
  induction tokens generalizing place with
  | nil => exact nofun
  | cons token tokens ih =>
    rw [after?, List.foldlM_cons] at reached
    obtain ⟨behind, step, reached⟩ := Option.bind_eq_some_iff.mp reached
    intro other member ends
    rcases List.mem_cons.mp member with rfl | member
    · rw [next?_end ends] at step
      cases step
    · exact ih reached other member ends

/-- The end of input is never passed. -/
theorem Leads.before_end
    (leads : Leads place (tokens ++ [⟨.symbol .endOfInput, offset⟩]) place' back) :
    ∃ front more, tokens = front ++ more ∧ back = more ++ [⟨.symbol .endOfInput, offset⟩] ∧
      place.after? front = some place' := by
  obtain ⟨front, same, reached⟩ := leads
  rcases List.eq_nil_or_concat back with rfl | ⟨more, last, rfl⟩
  · rw [List.append_nil] at same
    have passed := ne_end_of_after? reached ⟨.symbol .endOfInput, offset⟩ (by simp [← same])
    exact absurd rfl passed
  · rw [List.concat_eq_append, ← List.append_assoc] at same
    obtain ⟨rfl, sameLast⟩ := List.append_inj' same rfl
    obtain rfl := List.singleton_inj.mp sameLast
    exact ⟨front, more, rfl, List.concat_eq_append, reached⟩

/-- Tokens that end an expression at a place: an operand if one is due, and closing parentheses. -/
def closing : Place → List Token
  | operandDue opened => ⟨.symbol .euler, none⟩ :: opened.map fun _ => ⟨.symbol .rightParen, none⟩
  | operandRead opened => opened.map fun _ => ⟨.symbol .rightParen, none⟩

theorem after?_closing (place : Place) : place.after? place.closing = some (operandRead []) := by
  have closes (opened : List Token) :
      (operandRead opened).after? (operandRead opened).closing = some (operandRead []) := by
    induction opened with
    | nil => rfl
    | cons paren opened ih => exact ih
  cases place with
  | operandDue opened => exact closes opened
  | operandRead opened => exact closes opened

end Place

end Uncertainty

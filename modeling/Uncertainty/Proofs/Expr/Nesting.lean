import Uncertainty.Proofs.Expr.Place

/-!
How deeply the parser is nested behind some tokens. The expressions that it has begun and not ended
are a stack of powers. A token that can follow an operand first ends those that it cannot extend,
and only an opening parenthesis, a sign in front of an operand or an operator begins a new one. The
parser fails for its depth exactly if somewhere on the way more expressions are begun than it has
levels.
-/
namespace Uncertainty

/-- A place behind some tokens, with the powers of the expressions that are begun there, the
innermost first. -/
inductive Nest where
  | operandDue (powers : List Nat)
  | operandRead (powers : List Nat)

namespace Nest

def powers : Nest → List Nat
  | operandDue powers | operandRead powers => powers

variable {nest nest' nest'' : Nest} {inner outer powers : List Nat} {power most : Nat}
variable {front back tokens rest unread : List Token} {token : Token} {operator : Operator}

/-- The nest behind a token, none if the token may not stand there. A closing parenthesis ends the
innermost expression in parentheses, but never the outermost one. -/
def next? : Nest → Token → Option Nest
  | operandDue powers, token =>
    if token.lexeme.isAtom then some (operandRead powers)
    else if token.lexeme = .symbol .leftParen then some (operandDue (0 :: powers))
    else if token.lexeme = .symbol .minus then
      some (operandDue (Operator.negationPower :: powers))
    else none
  | operandRead powers, token =>
    if token.lexeme = .symbol .rightParen then
      match powers.dropWhile (0 < ·) with
      | _ :: power :: outer => some (operandRead (power :: outer))
      | _ => none
    else (Operator.ofLexeme? token.lexeme).map fun operator =>
      operandDue (operator.rightPower :: powers.dropWhile (operator.leftPower < ·))

def after? (nest : Nest) (tokens : List Token) : Option Nest :=
  tokens.foldlM next? nest

theorem after?_append :
    nest.after? (front ++ back) = (nest.after? front).bind fun nest => nest.after? back :=
  List.foldlM_append

theorem next?_atom (isAtom : token.lexeme.isAtom) :
    (operandDue powers).next? token = some (operandRead powers) := by
  simp [next?, isAtom]

theorem next?_opening (opens : token.lexeme = .symbol .leftParen) :
    (operandDue powers).next? token = some (operandDue (0 :: powers)) := by
  simp [next?, opens, Lexeme.isAtom]

theorem next?_minus (isMinus : token.lexeme = .symbol .minus) :
    (operandDue powers).next? token = some (operandDue (Operator.negationPower :: powers)) := by
  simp [next?, isMinus, Lexeme.isAtom]

theorem next?_closing (closes : token.lexeme = .symbol .rightParen)
    (positive : ∀ power ∈ inner, 0 < power) :
    (operandRead (inner ++ 0 :: power :: outer)).next? token =
      some (operandRead (power :: outer)) := by
  have ended : (inner ++ 0 :: power :: outer).dropWhile (0 < ·) = 0 :: power :: outer := by
    rw [List.dropWhile_append_of_pos (by simpa using positive)]
    rfl
  simp only [next?, closes, ended, ↓reduceIte]

theorem next?_unmatched (closes : token.lexeme = .symbol .rightParen)
    (positive : ∀ power ∈ inner, 0 < power) :
    (operandRead (inner ++ [0])).next? token = none := by
  have ended : (inner ++ [0]).dropWhile (0 < ·) = [0] := by
    rw [List.dropWhile_append_of_pos (by simpa using positive)]
    rfl
  simp only [next?, closes, ended, ↓reduceIte]

theorem next?_operator (spelled : Operator.ofLexeme? token.lexeme = some operator) :
    (operandRead powers).next? token = some (operandDue
      (operator.rightPower :: powers.dropWhile (operator.leftPower < ·))) := by
  simp [next?, (noParen_of_operator spelled).2, spelled]

theorem next?_paren (opens : token.lexeme = .symbol .leftParen) :
    (operandRead powers).next? token = none := by
  simp [next?, opens, Operator.ofLexeme?, Operator.ofSymbol?]

theorem next?_adjacent (isAtom : token.lexeme.isAtom) :
    (operandRead powers).next? token = none := by
  cases spelled : Operator.ofLexeme? token.lexeme with
  | none => simp [next?, (noParen_of_isAtom isAtom).2, spelled]
  | some operator => simp [isAtom_of_operator spelled] at isAtom

theorem next?_end (ends : token.lexeme = .symbol .endOfInput) : nest.next? token = none := by
  cases nest <;> simp [next?, ends, Lexeme.isAtom, Operator.ofLexeme?, Operator.ofSymbol?]

/-- `Passes most nest tokens nest' rest`: the tokens before `rest` lead from `nest` to `nest'`, and
no more than `most` expressions are begun before any of them. -/
inductive Passes (most : Nat) : Nest → List Token → Nest → List Token → Prop where
  | refl {nest : Nest} {tokens : List Token} : Passes most nest tokens nest tokens
  | cons {nest nest' nest'' : Nest} {token : Token} {tokens rest : List Token}
      (fits : nest.powers.length ≤ most) (step : nest.next? token = some nest')
      (further : Passes most nest' tokens nest'' rest) :
      Passes most nest (token :: tokens) nest'' rest

namespace Passes

theorem next (fits : nest.powers.length ≤ most)
    (step : nest.next? (tokens.headD .endOfInput) = some nest') :
    Passes most nest tokens nest' tokens.tail := by
  cases tokens with
  | nil =>
    rw [List.headD_nil, next?_end rfl] at step
    cases step
  | cons token tokens => exact .cons fits step .refl

theorem trans (first : Passes most nest tokens nest' rest)
    (second : Passes most nest' rest nest'' unread) : Passes most nest tokens nest'' unread := by
  induction first with
  | refl => exact second
  | cons fits step _ ih => exact .cons fits step (ih second)

theorem length_le (passes : Passes most nest tokens nest' rest) :
    rest.length ≤ tokens.length := by
  induction passes with
  | refl => exact Nat.le_refl _
  | cons _ _ _ ih => exact Nat.le_succ_of_le ih

theorem exists_front (passes : Passes most nest tokens nest' rest) :
    ∃ front, tokens = front ++ rest ∧ nest.after? front = some nest' := by
  induction passes with
  | refl => exact ⟨[], rfl, rfl⟩
  | @cons _ _ _ token _ _ _ step _ ih =>
    obtain ⟨front, rfl, reached⟩ := ih
    refine ⟨token :: front, rfl, ?_⟩
    rw [after?, List.foldlM_cons, step]
    exact reached

end Passes

/-- The tokens lead to where the next one is refused, with no more than `most` expressions begun
anywhere. -/
def Settles (most : Nat) (nest : Nest) (tokens : List Token) : Prop :=
  ∃ nest' rest, Passes most nest tokens nest' rest ∧ nest'.powers.length ≤ most ∧
    nest'.next? (rest.headD .endOfInput) = none

theorem Settles.fits (settles : Settles most nest (front ++ back))
    (reached : nest.after? front = some nest') : nest'.powers.length ≤ most := by
  obtain ⟨last, rest, passes, fitsLast, refused⟩ := settles
  generalize whole : front ++ back = tokens at passes
  induction passes generalizing front with
  | refl =>
    cases front with
    | nil =>
      cases reached
      exact fitsLast
    | cons token front =>
      rw [← whole, List.cons_append, List.headD_cons] at refused
      rw [after?, List.foldlM_cons, refused] at reached
      cases reached
  | cons fits step _ ih =>
    cases front with
    | nil =>
      cases reached
      exact fits
    | cons token front =>
      obtain ⟨rfl, same⟩ := List.cons.inj whole
      rw [after?, List.foldlM_cons, step] at reached
      exact ih reached fitsLast refused same

/-- An operand has been read since the expressions with `powers` were begun. Those begun further
inside, with the powers `inner`, cannot be extended by what follows. -/
structure Completes (most : Nat) (powers : List Nat) (tokens rest : List Token)
    (inner : List Nat) : Prop where
  passes : Passes most (operandDue powers) tokens (operandRead (inner ++ powers)) rest
  fits : (inner ++ powers).length ≤ most
  ended : ∀ power ∈ inner, 0 < power ∧ Stops power rest

namespace Completes

theorem positive (completes : Completes most powers tokens rest inner) :
    ∀ power ∈ inner, 0 < power :=
  fun power member => (completes.ended power member).1

/-- An expression that has ended is one of those further inside. -/
theorem outward (completes : Completes most (power :: powers) unread rest inner)
    (enters : Passes most (operandDue powers) tokens (operandDue (power :: powers)) unread)
    (positive : 0 < power) (stops : Stops power rest) :
    Completes most powers tokens rest (inner ++ [power]) := by
  refine ⟨?_, ?_, fun other member => ?_⟩
  · rw [← List.append_cons]
    exact enters.trans completes.passes
  · rw [← List.append_cons]
    exact completes.fits
  · rcases List.mem_append.mp member with inside | last
    · exact completes.ended other inside
    · rw [List.mem_singleton.mp last]
      exact ⟨positive, stops⟩

/-- An operator that extends an expression ends all those further inside. -/
theorem next_operator (completes : Completes most (power :: outer) tokens (token :: rest) inner)
    (spelled : Operator.ofLexeme? token.lexeme = some operator)
    (binds : power ≤ operator.leftPower) :
    Passes most (operandDue (power :: outer)) tokens
      (operandDue (operator.rightPower :: power :: outer)) rest := by
  have looser : ∀ other ∈ inner, operator.leftPower < other := fun other member =>
    ((completes.ended other member).2 token rfl).2.2 operator spelled
  have dropped : (inner ++ power :: outer).dropWhile (operator.leftPower < ·) = power :: outer := by
    rw [List.dropWhile_append_of_pos (by simpa using looser),
      List.dropWhile_cons_of_neg (by simpa using binds)]
  refine completes.passes.trans (.next completes.fits ?_)
  rw [List.headD_cons, next?_operator spelled, dropped]

end Completes

end Nest

namespace Parser

open Nest (operandDue Passes Settles Completes)

variable {limit : Int} {most levels power : Nat} {outer : List Nat} {tokens : List Token}
variable {left : Expr} {nested : Nat → Parser Expr}

/-- How a parser may fail: for its depth, on the way to a nest that is too deep, or else where a
token is refused. -/
def Exceeds (most : Nat) (nest : Nest) (tokens : List Token) (error : ParseError) : Prop :=
  ((∃ limit, error = .tooDeep limit) ∧
    ∃ nest' rest, Passes most nest tokens nest' rest ∧ most < nest'.powers.length) ∨
  ((∀ limit, error ≠ .tooDeep limit) ∧ Settles most nest tokens)

theorem Exceeds.before {nest nest' : Nest} {rest : List Token} {error : ParseError}
    (passes : Passes most nest tokens nest' rest) (exceeds : Exceeds most nest' rest error) :
    Exceeds most nest tokens error := by
  rcases exceeds with
    ⟨deep, last, unread, further, high⟩ | ⟨noDepth, last, unread, further, settled⟩
  · exact .inl ⟨deep, last, unread, passes.trans further, high⟩
  · exact .inr ⟨noDepth, last, unread, passes.trans further, settled⟩

theorem Exceeds.refused {nest nest' : Nest} {rest : List Token} {found : Token}
    {error : SyntaxError} (passes : Passes most nest tokens nest' rest)
    (fits : nest'.powers.length ≤ most) (refused : nest'.next? (rest.headD .endOfInput) = none) :
    Exceeds most nest tokens (fault found error) :=
  .inr ⟨fault_ne_tooDeep found error, nest', rest, passes, fits, refused⟩

/-- A parser of an expression inside those with the powers `outer`. The levels that it has are those
that they leave. -/
def Descends (most levels power : Nat) (parser : Parser Expr) : Prop :=
  ∀ tokens outer, outer.length + levels = most → Ensures parser tokens
    (fun _ rest => Stops power rest ∧ ∃ inner, Completes most (power :: outer) tokens rest inner)
    (fun error _ => Exceeds most (operandDue (power :: outer)) tokens error)

theorem operand_completes (inner : ∀ power, Descends most levels power (nested power))
    (room : (power :: outer).length + levels = most) :
    Ensures (operand nested) tokens
      (fun _ rest => ∃ inner, Completes most (power :: outer) tokens rest inner)
      (fun error _ => Exceeds most (operandDue (power :: outer)) tokens error) := by
  have fits : (power :: outer).length ≤ most := room ▸ Nat.le_add_right ..
  refine ensures_operand rfl (fun isAtom => ?_) (fun opens => ?_) (fun isMinus => ?_)
    fun noAtom noParen noMinus => ?_
  · exact ⟨[], .next fits (Nest.next?_atom isAtom), fits, nofun⟩
  · have enters : Passes most (operandDue (power :: outer)) tokens
        (operandDue (0 :: power :: outer)) tokens.tail := .next fits (Nest.next?_opening opens)
    refine (inner 0 _ (power :: outer) room).imp (fun tree rest => ?_)
      fun error unread exceeds => exceeds.before enters
    rintro ⟨stops, inside, completes⟩
    have passes := enters.trans completes.passes
    refine ⟨fun closes => ?_, fun unclosed => ?_⟩
    · have leaves := Passes.next completes.fits (Nest.next?_closing closes completes.positive)
      exact ⟨[], passes.trans leaves, fits, nofun⟩
    · have ends := stops.ends_or_closes.resolve_right unclosed
      exact .refused passes completes.fits (Nest.next?_end ends)
  · have enters : Passes most (operandDue (power :: outer)) tokens
        (operandDue (Operator.negationPower :: power :: outer)) tokens.tail :=
      .next fits (Nest.next?_minus isMinus)
    refine (inner _ _ (power :: outer) room).imp (fun tree rest => ?_)
      fun error unread exceeds => exceeds.before enters
    rintro ⟨stops, inside, completes⟩
    exact ⟨_, completes.outward enters (by decide) stops⟩
  · refine .refused .refl fits ?_
    simp only [Nest.next?, noAtom, noParen, noMinus, Bool.false_eq_true, ↓reduceIte]

theorem extend_completes {rest : List Token}
    (inner : ∀ power, Descends most levels power (nested power))
    (room : (power :: outer).length + levels = most)
    (holds : ∃ inner, Completes most (power :: outer) tokens rest inner) :
    Ensures (extend nested power rest.length left) rest
      (fun _ rest => Stops power rest ∧ ∃ inner, Completes most (power :: outer) tokens rest inner)
      (fun error _ => Exceeds most (operandDue (power :: outer)) tokens error) := by
  refine ensures_extend
    (fun _ unread => ∃ inner, Completes most (power :: outer) tokens unread inner)
    (Nat.le_refl _) holds (fun _ _ holds stops => ⟨stops, holds⟩) ?_ ?_ ?_
  · rintro _ paren unread ⟨inside, completes⟩ opens
    exact .refused completes.passes completes.fits (Nest.next?_paren opens)
  · rintro _ found unread ⟨inside, completes⟩ isAtom
    exact .refused completes.passes completes.fits (Nest.next?_adjacent isAtom)
  · rintro _ sign unread operator ⟨inside, completes⟩ spelled binds
    have enters := completes.next_operator spelled binds
    refine (inner _ _ (power :: outer) room).imp (fun right rest => ?_)
      fun error unread exceeds => exceeds.before enters
    rintro ⟨stops, insideRight, completesRight⟩
    have positive : 0 < operator.rightPower := by cases operator <;> decide
    exact ⟨completesRight.passes.length_le, _, completesRight.outward enters positive stops⟩

theorem expression_descends (levels power : Nat) :
    Descends most levels power (expression limit levels power) := by
  induction levels generalizing power with
  | zero =>
    intro tokens outer room
    exact .inl ⟨⟨limit, rfl⟩, _, tokens, .refl, room ▸ Nat.lt_succ_self _⟩
  | succ levels ih =>
    intro tokens outer room
    have roomInside : (power :: outer).length + levels = most := by
      rw [List.length_cons]
      omega
    exact ensures_expression ((operand_completes ih roomInside).mono fun _ _ holds =>
      extend_completes ih roomInside holds)

theorem whole_settles : Ensures (whole limit) tokens
    (fun _ _ => Settles limit.toNat (operandDue [0]) tokens)
    (fun error _ => Exceeds limit.toNat (operandDue [0]) tokens error) := by
  apply ensures_whole
  refine (expression_descends _ _ tokens [] (Nat.zero_add _)).mono fun tree rest => ?_
  rintro ⟨stops, inner, completes⟩
  refine ⟨fun ends => ?_, fun closes => ?_, fun noEnd noClosing => ?_⟩
  · exact ⟨_, rest, completes.passes, completes.fits, Nest.next?_end ends⟩
  · exact .refused completes.passes completes.fits
      (Nest.next?_unmatched closes completes.positive)
  · exact absurd stops.ends_or_closes (not_or.mpr ⟨noEnd, noClosing⟩)

end Parser

namespace Expr

open Nest (operandDue)

/-- The parser fails for its depth exactly if the tokens begin with some behind which more
expressions are begun than the limit allows. -/
theorem ofTokens_tooDeep_iff (limit : Int) (tokens : List Token) :
    (∃ limit', (ofTokens limit tokens).1 = .error (.tooDeep limit')) ↔
      ∃ front back nest, tokens = front ++ back ∧
        (operandDue [0]).after? front = some nest ∧ limit.toNat < nest.powers.length := by
  have settles := @Parser.whole_settles limit tokens
  have shallow (settled : Nest.Settles limit.toNat (operandDue [0]) tokens) :
      ¬ ∃ front back nest, tokens = front ++ back ∧
        (operandDue [0]).after? front = some nest ∧ limit.toNat < nest.powers.length := by
    rintro ⟨front, back, nest, rfl, reached, high⟩
    exact absurd (settled.fits reached) (Nat.not_le.mpr high)
  rw [ofTokens]
  cases ran : (Parser.whole limit).run tokens with
  | ok tree rest =>
    refine iff_of_false ?_ (shallow (settles.of_ok ran))
    rintro ⟨limit', same⟩
    cases same
  | error error rest =>
    rcases settles.of_error ran with
      ⟨⟨limit', rfl⟩, nest, unread, passes, high⟩ | ⟨noDepth, settled⟩
    · obtain ⟨front, same, reached⟩ := passes.exists_front
      exact iff_of_true ⟨limit', rfl⟩ ⟨front, unread, nest, same, reached, high⟩
    · refine iff_of_false ?_ (shallow settled)
      rintro ⟨limit', same⟩
      exact noDepth limit' (Except.error.inj same)

end Expr
end Uncertainty

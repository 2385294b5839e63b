import Uncertainty.Calculation
import Uncertainty.Proofs.Expr.RoundTrip

/-!
What reading a text can end in. The lexer makes no literal but a decimal one, and from its tokens
the parser makes well-formed trees only; where it makes none, the order of the tokens is at fault or
they nest too deeply.
-/
namespace Uncertainty

/-- A lexeme that a text can spell: a symbol, or a number by its digits. -/
def Lexeme.Spelled : Lexeme → Prop
  | .number literal => literal.IsDecimal
  | .symbol _ => True
  | .data .. => False

theorem Lexeme.Spelled.textless?_eq {lexeme : Lexeme} (spelled : lexeme.Spelled) :
    lexeme.textless? = none := by
  cases lexeme with
  | number | symbol => rfl
  | data => cases spelled

/-- Tokens that all have a lexeme which a text can spell. -/
def Spelled (tokens : List Token) : Prop :=
  ∀ token ∈ tokens, token.lexeme.Spelled

section Lexer

variable {offset : Nat} {run text spelling following rest : List Char} {literal : Literal}
variable {lexeme : Lexeme} {pieces : List Piece}

theorem Writes.isDecimal (writes : Writes run literal) (stretch : IsStretch run)
    (nonempty : run ≠ []) : literal.IsDecimal := by
  have digit {c : Char} (member : c ∈ run) (noPoint : c ≠ '.') : c.isDigit :=
    (stretch.1 c member).resolve_right noPoint
  cases writes with
  | whole noPoint =>
    refine ⟨by simpa using nonempty, fun c member => ?_, by simp⟩
    rw [String.toList_ofList] at member
    exact digit member fun point => noPoint (point ▸ member)
  | @pointed before after noPoint =>
    have onePoint := stretch.2
    rw [List.count_append, List.count_cons_self] at onePoint
    have noSecond : '.' ∉ after := List.count_eq_zero.mp (by omega)
    refine ⟨?_, fun c member => ?_, fun c member => ?_⟩
    · dsimp only
      split
      case isTrue => decide
      case isFalse nonempty => simpa using nonempty
    · dsimp only at member
      split at member
      case isTrue =>
        obtain rfl := List.mem_singleton.mp member
        rfl
      case isFalse =>
        rw [String.toList_ofList] at member
        exact digit (List.mem_append_left _ member) fun point => noPoint (point ▸ member)
    · rw [String.toList_ofList] at member
      exact digit (List.mem_append_right _ (List.mem_cons_of_mem _ member))
        fun point => noSecond (point ▸ member)

theorem Munch.spelled (munch : Munch spelling lexeme following) : lexeme.Spelled := by
  cases munch with
  | digraph | symbol => trivial
  | numeral isRun nonempty _ writes => exact writes.isDecimal isRun.1 nonempty

theorem Split.spelled (split : Split offset text pieces rest) :
    Spelled (pieces.map Piece.token) := by
  induction split with
  | done => exact nofun
  | blank _ _ ih => exact ih
  | lexeme munch _ ih =>
    rw [List.map_cons]
    rintro token (_ | ⟨_, member⟩)
    · exact munch.spelled
    · exact ih token member

theorem Token.spelled_of_tokenize {text : String} {tokens : List Token}
    (done : tokenize text = .ok tokens) : Spelled tokens := by
  obtain ⟨pieces, rest, stop, split, reaches, ending⟩ := exists_split 0 text.toList
  rw [Nat.zero_add, String.length_toList] at reaches
  rcases ending with rfl | ⟨error, stuck⟩
  · rw [split.tokenize_eq] at done
    cases done
    intro token member
    rcases List.mem_append.mp member with inPieces | last
    · exact split.spelled token inPieces
    · obtain rfl := List.mem_singleton.mp last
      trivial
  · rw [stuck.tokenize_eq split reaches] at done
    cases done

end Lexer

theorem Derivation.wellFormed {category : Category} (derivation : Derivation category)
    (spelled : Spelled derivation.yield) : derivation.tree.WellFormed := by
  induction derivation with
  | only _ inner ih => exact ih spelled
  | infixed operator _ left sign isOperator right ihLeft ihRight =>
    refine .infixed isOperator (ihLeft fun token member => ?_) (ihRight fun token member => ?_)
    · exact spelled token (List.mem_append_left _ member)
    · exact spelled token (List.mem_append_right _ (List.mem_cons_of_mem _ member))
  | atom token isAtom =>
    have atomic := spelled token List.mem_cons_self
    cases shape : token.lexeme with
    | number literal =>
      rw [shape] at atomic
      exact .number shape atomic
    | symbol symbol =>
      rw [shape] at isAtom
      cases symbol with
      | euler => exact .constant (.inl shape)
      | pi => exact .constant (.inr shape)
      | _ => cases isAtom
    | data =>
      rw [shape] at atomic
      cases atomic
  | negation sign isMinus operand ih =>
    exact .negation isMinus (ih fun token member => spelled token (List.mem_cons_of_mem _ member))
  | parens opening _ inner closing _ ih =>
    exact ih fun token member =>
      spelled token (List.mem_cons_of_mem _ (List.mem_append_left _ member))

namespace Parser

variable {α β : Type} {limit : Int} {levels power rounds : Nat}
variable {token : Token} {error : SyntaxError} {left : Expr}

/-- On tokens that a text can spell, the parser leaves such tokens and its result is as told, or it
fails for their order or their depth. -/
def Yields (limit : Int) (parser : Parser α) (result : α → Prop) : Prop :=
  ∀ tokens, Spelled tokens → match parser.run tokens with
    | .ok a rest => result a ∧ Spelled rest
    | .error error _ => error = .tooDeep limit ∨ ∃ disorder, error = .malformed disorder

variable {parser : Parser α} {next' : α → Parser β} {result : α → Prop} {result' : β → Prop}
variable {nested : Nat → Parser Expr}

theorem Yields.pure {a : α} (holds : result a) : Yields limit (pure a) result :=
  fun _ spelled => ⟨holds, spelled⟩

theorem Yields.bind (first : Yields limit parser result)
    (second : ∀ a, result a → Yields limit (next' a) result') :
    Yields limit (parser >>= next') result' := by
  intro tokens spelled
  have done := first tokens spelled
  rw [EStateM.run_bind]
  cases ran : parser.run tokens with
  | ok a rest =>
    rw [ran] at done
    exact second a done.1 rest done.2
  | error failure rest =>
    rw [ran] at done
    exact done

theorem Yields.ite {condition : Prop} [Decidable condition] {other : Parser α}
    (first : Yields limit parser result) (second : Yields limit other result) :
    Yields limit (if condition then parser else other) result := by
  split
  · exact first
  · exact second

theorem headD_spelled {tokens : List Token} (spelled : Spelled tokens) :
    (tokens.headD .endOfInput).lexeme.Spelled := by
  cases tokens with
  | nil => trivial
  | cons token tokens => exact spelled token List.mem_cons_self

theorem yields_peek : Yields limit peek (·.lexeme.Spelled) :=
  fun _ spelled => ⟨headD_spelled spelled, spelled⟩

theorem yields_next : Yields limit next (·.lexeme.Spelled) :=
  fun _ spelled => ⟨headD_spelled spelled, fun token member =>
    spelled token (List.mem_of_mem_tail member)⟩

theorem yields_failAt (spelled : token.lexeme.Spelled) :
    Yields limit (failAt token error) result := by
  intro tokens _
  rw [failAt_run, fault, spelled.textless?_eq]
  exact .inr ⟨error, rfl⟩

theorem yields_operand (inner : ∀ power, Yields limit (nested power) fun _ => True) :
    Yields limit (operand nested) fun _ => True := by
  refine yields_next.bind fun token spelled => .ite (.pure trivial) ?_
  split
  case h_1 =>
    refine (inner 0).bind fun tree _ => yields_next.bind fun closing spelled => ?_
    exact .ite (.pure trivial) (yields_failAt spelled)
  case h_2 => exact (inner _).bind fun tree _ => .pure trivial
  case h_3 => exact yields_failAt spelled

theorem yields_extend (inner : ∀ power, Yields limit (nested power) fun _ => True) :
    Yields limit (extend nested power rounds left) fun _ => True := by
  induction rounds generalizing left with
  | zero => exact .pure trivial
  | succ rounds ih =>
    refine yields_peek.bind fun token spelled => ?_
    have failure {error : SyntaxError} :
        Yields limit (failAt token error) fun _ : PUnit => False := yields_failAt spelled
    dsimp only
    refine .ite (failure.bind nofun) (.ite (failure.bind nofun) ?_)
    split
    case h_1 => exact .pure trivial
    case h_2 operator _ =>
      refine .ite (.pure trivial) (yields_next.bind fun sign _ => ?_)
      exact (inner operator.rightPower).bind fun right _ => ih

theorem yields_expression (levels power : Nat) :
    Yields limit (expression limit levels power) fun _ => True := by
  induction levels generalizing power with
  | zero => exact fun _ _ => .inl rfl
  | succ levels ih =>
    have looks : Yields limit get fun _ => True := fun _ spelled => ⟨trivial, spelled⟩
    exact (yields_operand ih).bind fun left _ => looks.bind fun tokens _ => yields_extend ih

theorem yields_whole : Yields limit (whole limit) fun _ => True := by
  refine .bind (yields_expression _ _) fun tree _ => yields_peek.bind fun trailing spelled => ?_
  split
  · exact .pure trivial
  · exact yields_failAt spelled
  · exact yields_failAt spelled

end Parser

namespace Expr

variable {limit : Int} {text : String} {tokens : List Token} {tree : Expr}

theorem ofTokens_cases (limit : Int) (spelled : Spelled tokens) :
    (∃ tree, (ofTokens limit tokens).1 = .ok tree ∧ tree.WellFormed) ∨
    (∃ disorder, (ofTokens limit tokens).1 = .error (.malformed disorder)) ∨
    (ofTokens limit tokens).1 = .error (.tooDeep limit) := by
  cases done : (ofTokens limit tokens).1 with
  | ok tree =>
    obtain ⟨whole, rest, reads, rfl, -⟩ := ofTokens_eq_ok_iff.mp done
    obtain ⟨-, derivation, rfl, rfl⟩ := reads_iff_derivation.mp reads
    refine .inl ⟨_, rfl, derivation.wellFormed fun token member => ?_⟩
    exact spelled token (List.mem_append_left _ member)
  | error error =>
    have fails := @Parser.yields_whole limit tokens spelled
    rw [ofTokens] at done
    cases ran : (Parser.whole limit).run tokens with
    | ok => simp [ran] at done
    | error failure rest =>
      rw [ran] at done fails
      cases done
      rcases fails with rfl | ⟨disorder, rfl⟩
      · exact .inr (.inr rfl)
      · exact .inr (.inl ⟨disorder, rfl⟩)

/-- What becomes of a text before it is evaluated. -/
theorem ofText_cases (limit : Int) (text : String) :
    (∃ tree, ofText limit text = .ok tree ∧ tree.WellFormed) ∨
    (∃ error, ofText limit text = .error (.lexical error)) ∨
    (∃ disorder, ofText limit text = .error (.parsing (.malformed disorder))) ∨
    ofText limit text = .error (.parsing (.tooDeep limit)) := by
  cases lexed : Token.tokenize text with
  | error error => exact .inr (.inl ⟨error, by rw [ofText, lexed]; rfl⟩)
  | ok tokens =>
    have goesOn : ofText limit text = (ofTokens limit tokens).1.mapError .parsing := by
      rw [ofText, lexed]
      rfl
    rw [goesOn]
    rcases ofTokens_cases limit (Token.spelled_of_tokenize lexed) with
      ⟨tree, parsed, formed⟩ | ⟨disorder, failed⟩ | failed
    · rw [parsed]
      exact .inl ⟨tree, rfl, formed⟩
    · rw [failed]
      exact .inr (.inr (.inl ⟨disorder, rfl⟩))
    · rw [failed]
      exact .inr (.inr (.inr rfl))

theorem wellFormed_of_ofText (read : ofText limit text = .ok tree) : tree.WellFormed := by
  rcases ofText_cases limit text with
    ⟨read', same, formed⟩ | ⟨error, failed⟩ | ⟨disorder, failed⟩ | failed
  · rw [read] at same
    cases same
    exact formed
  all_goals
    rw [read] at failed
    cases failed

end Expr
end Uncertainty

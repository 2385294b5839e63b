import Uncertainty.Proofs.Calculation.Offsets
import Uncertainty.Proofs.Token.Respelling

/-!
Spellings and blanks change no result. A text that edits make of another one has the same lexemes,
so it is read as the same tree, which has the same value, or it is refused for a fault of the same
kind.
-/
namespace Uncertainty

variable {limit : Int} {text : String} {tokens : List Token} {tree : Expr}

theorem Expr.ofText_of_tokenize (lexed : Token.tokenize text = .ok tokens) :
    ofText limit text = (ofTokens limit tokens).1.mapError .parsing := by
  rw [ofText, lexed]
  rfl

theorem Value.ofText_of_ok (read : Expr.ofText limit text = .ok tree) :
    ofText limit text = tree.evaluate.mapError .evaluation := by
  rw [ofText, read]
  rfl

theorem Value.ofText_of_error {failure : Failure}
    (failed : Expr.ofText limit text = .error failure) : ofText limit text = .error failure := by
  rw [ofText, failed]
  rfl

/-- Well-formed trees that differ in offsets only have the same value or are undefined for the same
reason. -/
theorem Expr.evaluate_cases_of_bare {tree tree' : Expr} (formed : tree.WellFormed)
    (same : tree.bare = tree'.bare) :
    (∃ value, tree.evaluate = .ok value ∧ tree'.evaluate = .ok value) ∨
    ∃ error, tree.evaluate = .error (.undefined error) ∧
      tree'.evaluate = .error (.undefined error) := by
  have outcomes := evaluate_of_bare same
  cases evaluated : tree.evaluate with
  | ok value =>
    rw [evaluated] at outcomes
    cases evaluated' : tree'.evaluate with
    | ok value' =>
      rw [evaluated'] at outcomes
      exact .inl ⟨value, rfl, congrArg Except.ok (Except.ok.inj outcomes).symm⟩
    | error => rw [evaluated'] at outcomes; cases outcomes
  | error error =>
    have failed := evaluated
    rw [evaluate_computes] at failed
    obtain ⟨undefined, rfl⟩ := formed.error_undefined failed
    rw [evaluated] at outcomes
    refine .inr ⟨undefined, rfl, ?_⟩
    cases evaluated' : tree'.evaluate with
    | ok => rw [evaluated'] at outcomes; cases outcomes
    | error error' =>
      rw [evaluated'] at outcomes
      cases error' <;> cases outcomes
      rfl

namespace Value

/-- Edits of spelling and spacing keep the tokens of a text but for their offsets. Within any limit of
depth the text is read as the same tree and has the same value or is undefined for the same reason,
or it is refused for a fault of the same kind. -/
theorem ofText_respelled (text text' : String)
    (edits : Relation.ReflTransGen Respelling text.toList text'.toList)
    (tokens : List Token) (lexed : Token.tokenize text = .ok tokens) :
    (∃ tokens', Token.tokenize text' = .ok tokens' ∧
      tokens'.map Token.lexeme = tokens.map Token.lexeme) ∧
    ∀ limit,
      (∃ tree tree', Expr.ofText limit text = .ok tree ∧ Expr.ofText limit text' = .ok tree' ∧
        tree.same tree' ∧
        ((∃ value, ofText limit text = .ok value ∧ ofText limit text' = .ok value) ∨
          ∃ error, ofText limit text = .error (.evaluation (.undefined error)) ∧
            ofText limit text' = .error (.evaluation (.undefined error)))) ∨
      ∃ failure failure', Expr.ofText limit text = .error failure ∧
        Expr.ofText limit text' = .error failure' ∧ ofText limit text = .error failure ∧
        ofText limit text' = .error failure' ∧ failure.category = failure'.category := by
  obtain ⟨tokens', lexed', same⟩ := Respelling.exists_tokens edits lexed
  refine ⟨⟨tokens', lexed', same⟩, fun limit => ?_⟩
  have reads : Expr.ofText limit text = _ := Expr.ofText_of_tokenize lexed
  have reads' : Expr.ofText limit text' = _ := Expr.ofText_of_tokenize lexed'
  rcases Expr.ofTokens_of_lexemes same.symm limit with
    ⟨tree, tree', parsed, parsed', sameTree⟩ | ⟨error, error', failed, failed', sameError⟩
  · rw [parsed] at reads
    rw [parsed'] at reads'
    refine .inl ⟨tree, tree', reads, reads', (Expr.same_iff_bare _ _).mpr sameTree, ?_⟩
    rw [ofText_of_ok reads, ofText_of_ok reads']
    rcases Expr.evaluate_cases_of_bare (Expr.wellFormed_of_ofText reads) sameTree with
      ⟨value, valued, valued'⟩ | ⟨undefined, undefinedHere, undefinedThere⟩
    · rw [valued, valued']
      exact .inl ⟨value, rfl, rfl⟩
    · rw [undefinedHere, undefinedThere]
      exact .inr ⟨undefined, rfl, rfl⟩
  · rw [failed] at reads
    rw [failed'] at reads'
    refine .inr ⟨_, _, reads, reads', ofText_of_error reads, ofText_of_error reads', ?_⟩
    exact ParseError.category_of_bare sameError

/-- `1±2` has the same lexemes when it is written `1 +-2`. -/
theorem exists_tokens_of_respelled_sign :
    Relation.ReflTransGen Respelling "1±2".toList "1 +-2".toList ∧
    ∃ tokens tokens', Token.tokenize "1±2" = .ok tokens ∧ Token.tokenize "1 +-2" = .ok tokens' ∧
      tokens'.map Token.lexeme = tokens.map Token.lexeme := by
  have noNumeral : ¬ InsideNumeral (['1'] ++ ['±', '2']) 1 := by
    rintro ⟨pieces, piece, literal, split, member, -, begins, ends⟩
    exact split.isSeam (by decide) piece member ⟨begins, ends⟩
  have spaced : Respelling (['1'] ++ ['±', '2']) (['1'] ++ ' ' :: ['±', '2']) :=
    .blank rfl noNumeral (by decide)
  have apart : Respelling (['1', ' '] ++ '±' :: ['2']) (['1', ' '] ++ '+' :: '-' :: ['2']) := .apart
  have edits : Relation.ReflTransGen Respelling "1±2".toList "1 +-2".toList :=
    .tail (.tail .refl spaced) apart
  obtain ⟨tokens, lexed⟩ : ∃ tokens, Token.tokenize "1±2" = .ok tokens := ⟨_, rfl⟩
  obtain ⟨tokens', lexed', same⟩ := (ofText_respelled _ _ edits tokens lexed).1
  exact ⟨edits, tokens, tokens', lexed, lexed', same⟩

end Value
end Uncertainty

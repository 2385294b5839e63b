import Uncertainty.Calculation
import Uncertainty.Expr.Printer
import Uncertainty.Proofs.Expr.Parsing
import Uncertainty.Proofs.Token.Split

/-!
The text with a pair of parentheses for each group reads back as the tree that it was written for,
the offsets of the tokens aside. The parentheses nest, so the reader has to go deeper than the tree
does: by two levels into the operand of a sign and into a right operand, by one into a left one.
-/
namespace Uncertainty

/-- Digits on both sides of the point, at least one of them before it. -/
structure Literal.IsDecimal (literal : Literal) : Prop where
  nonempty : literal.integral.toList ≠ []
  integral : ∀ c ∈ literal.integral.toList, c.isDigit
  fractional : ∀ c ∈ literal.fractional.toList, c.isDigit

namespace Expr

/-- The trees that are expressions: literals and constants, signs with one operand and operators
with two. -/
inductive WellFormed : Expr → Prop where
  | constant {token : Token}
      (isConstant : token.lexeme = .symbol .euler ∨ token.lexeme = .symbol .pi) :
      WellFormed (.atom token)
  | number {token : Token} {literal : Literal} (spelled : token.lexeme = .number literal)
      (isDecimal : literal.IsDecimal) : WellFormed (.atom token)
  | negation {sign : Token} {operand : Expr} (isMinus : sign.lexeme = .symbol .minus)
      (formed : WellFormed operand) : WellFormed (.group sign [operand])
  | infixed {sign : Token} {operator : Operator} {left right : Expr}
      (spelled : Operator.ofLexeme? sign.lexeme = some operator)
      (leftFormed : WellFormed left) (rightFormed : WellFormed right) :
      WellFormed (.group sign [left, right])

/-- How deeply the reader nests on the parenthesized text of a well-formed tree. -/
def need : Expr → Nat
  | atom _ => 1
  | group _ [x] => 2 + need x
  | group _ [x, y] => max (1 + need x) (2 + need y)
  | group _ _ => 0

end Expr

section Numerals

variable {literal : Literal} {rest : List Char}

/-- What stands behind a numeral does not make it longer. -/
def EndsNumeral (rest : List Char) : Prop :=
  ∀ c ∈ rest.head?, ¬ (c.isDigit ∨ c = '.')

theorem not_point_of_digits {digits : List Char} (inside : ∀ c ∈ digits, c.isDigit) :
    '.' ∉ digits := by
  intro member
  cases inside '.' member

theorem Literal.toText_eq (literal : Literal) : literal.toText.toList =
    if literal.fractional.toList = [] then literal.integral.toList
    else literal.integral.toList ++ '.' :: literal.fractional.toList := by
  by_cases whole : literal.fractional = ""
  · simp [Literal.toText, whole]
  · have pointed : literal.fractional.toList ≠ [] := by simpa using whole
    simp [Literal.toText, whole]

theorem Literal.IsDecimal.isStretch (isDecimal : literal.IsDecimal) :
    IsStretch literal.toText.toList := by
  obtain ⟨-, integral, fractional⟩ := isDecimal
  have noPoint := List.count_eq_zero.mpr (not_point_of_digits integral)
  have noSecond := List.count_eq_zero.mpr (not_point_of_digits fractional)
  rw [Literal.toText_eq]
  split
  · exact ⟨fun c member => .inl (integral c member), by omega⟩
  · refine ⟨fun c member => ?_, ?_⟩
    · rcases List.mem_append.mp member with before | behind
      · exact .inl (integral c before)
      · rcases List.mem_cons.mp behind with rfl | after
        · exact .inr rfl
        · exact .inl (fractional c after)
    · rw [List.count_append, List.count_cons_self]
      omega

theorem Literal.IsDecimal.writes (isDecimal : literal.IsDecimal) :
    Writes literal.toText.toList literal := by
  have noPoint := not_point_of_digits isDecimal.integral
  rw [Literal.toText_eq]
  split
  case isTrue whole =>
    have writes := Writes.whole noPoint
    rwa [String.ofList_toList, ← String.toList_eq_nil_iff.mp whole] at writes
  case isFalse =>
    have writes := @Writes.pointed _ literal.fractional.toList noPoint
    rwa [if_neg isDecimal.nonempty, String.ofList_toList, String.ofList_toList] at writes

theorem Literal.IsDecimal.closed (isDecimal : literal.IsDecimal) :
    literal.toText.toList.getLast? ≠ some '.' := by
  intro last
  rw [Literal.toText_eq] at last
  split at last
  · exact not_point_of_digits isDecimal.integral (List.mem_of_getLast? last)
  case isFalse pointed =>
    rw [List.getLast?_append, List.getLast?_cons_of_ne_nil pointed,
      List.getLast?_eq_some_getLast pointed, Option.some_or] at last
    have member := List.getLast_mem pointed
    rw [Option.some.inj last] at member
    exact not_point_of_digits isDecimal.fractional member

theorem Literal.IsDecimal.munch (isDecimal : literal.IsDecimal) (ends : EndsNumeral rest) :
    Munch literal.toText.toList (.number literal) rest := by
  have stretch := isDecimal.isStretch
  refine .numeral ⟨stretch, fun c member longer => ?_⟩ ?_ isDecimal.closed isDecimal.writes
  · exact ends c member (((isStretch_snoc stretch).mp longer).imp id And.left)
  · intro empty
    rw [Literal.toText_eq] at empty
    split at empty
    · exact isDecimal.nonempty empty
    · cases (List.append_eq_nil_iff.mp empty).2

end Numerals

section Splits

variable {offset stop : Nat} {text middle rest : List Char} {front pieces : List Piece}

theorem Split.append (first : Split offset text front middle)
    (second : Split stop middle pieces rest)
    (reaches : stop + middle.length = offset + text.length) :
    Split offset text (front ++ pieces) rest := by
  induction first with
  | @done offset middle =>
    obtain rfl : stop = offset := by omega
    exact second
  | blank isBlank further ih =>
    rw [List.length_cons] at reaches
    exact .blank isBlank (ih second (by omega))
  | lexeme munch further ih =>
    rw [List.length_append] at reaches
    exact .lexeme munch (ih second (by omega))

theorem Split.symbol {c : Char} (symbol : Symbol) (spelled : symbol.text.toList = [c])
    (noDigraph : symbol = .plus → text.head? ≠ some '-')
    (further : Split (offset + 1) text pieces rest) :
    Split offset (c :: text) (⟨offset, [c], .symbol symbol⟩ :: pieces) rest :=
  .lexeme (.symbol spelled noDigraph) further

end Splits

section Rendering

variable {category loose tight : Category} {text leftText rightText : List Char}
variable {tree operand left right : Expr} {depth leftDepth rightDepth : Nat}
variable {sign token : Token} {operator : Operator}

/-- In front of whatever ends a numeral, `text` splits into the tokens of a derivation of `tree`. -/
def Renders (category : Category) (text : List Char) (tree : Expr) (depth : Nat) : Prop :=
  ∀ offset rest, EndsNumeral rest → ∃ pieces, ∃ derivation : Derivation category,
    Split offset (text ++ rest) pieces rest ∧ derivation.yield = pieces.map Piece.token ∧
    derivation.tree.same tree ∧ derivation.depth = depth

theorem Renders.loosen (renders : Renders tight text tree depth)
    (below : loose.rank ≤ tight.rank) : Renders loose text tree depth := by
  intro offset rest ends
  obtain ⟨pieces, derivation, split, yields, sameTree, depthEq⟩ := renders offset rest ends
  obtain ⟨loosened, samePhrase⟩ := derivation.exists_loosened below
  simp only [Derivation.yield, Derivation.tree, Derivation.depth, ← samePhrase]
    at yields sameTree depthEq
  exact ⟨pieces, loosened, split, yields, sameTree, depthEq⟩

theorem Renders.atom (isAtom : token.lexeme.isAtom)
    (munch : ∀ rest, EndsNumeral rest → Munch token.lexeme.text.toList token.lexeme rest) :
    Renders .unary token.lexeme.text.toList (.atom token) 1 := by
  intro offset rest ends
  refine ⟨_, .atom ⟨token.lexeme, some offset⟩ isAtom, .lexeme (munch rest ends) .done, rfl, ?_, rfl⟩
  simp [Derivation.tree, Derivation.phrase, Phrase.tree, Expr.same]

theorem Renders.negation (isMinus : sign.lexeme = .symbol .minus)
    (renders : Renders .unary text operand depth) :
    Renders .unary ('-' :: text) (.group sign [operand]) (1 + depth) := by
  intro offset rest ends
  obtain ⟨pieces, derivation, split, yields, sameTree, rfl⟩ := renders (offset + 1) rest ends
  refine ⟨_, .negation ⟨.symbol .minus, some offset⟩ rfl derivation,
    .symbol .minus rfl nofun split, congrArg _ yields, ?_, rfl⟩
  simp only [Derivation.tree] at sameTree
  simp [Derivation.tree, Derivation.phrase, Phrase.tree, Expr.same, Expr.sameAll, isMinus, sameTree]

theorem Renders.parens (renders : Renders .sum text tree depth) :
    Renders .unary ('(' :: (text ++ [')'])) tree (1 + depth) := by
  intro offset rest ends
  obtain ⟨pieces, derivation, split, yields, sameTree, rfl⟩ :=
    renders (offset + 1) (')' :: rest) (by rintro c ⟨⟩; decide)
  have closing : Split (offset + 1 + text.length) (')' :: rest)
      [⟨offset + 1 + text.length, [')'], .symbol .rightParen⟩] rest :=
    .symbol .rightParen rfl nofun .done
  have inner := split.append closing (by rw [List.length_append]; omega)
  rw [List.cons_append, List.append_assoc]
  refine ⟨_, .parens ⟨.symbol .leftParen, some offset⟩ rfl derivation
    ⟨.symbol .rightParen, some (offset + 1 + text.length)⟩ rfl,
    .symbol .leftParen rfl nofun inner, ?_, ?_, rfl⟩
  · simp only [Derivation.yield] at yields
    simp [Derivation.yield, Derivation.phrase, Phrase.yield, yields, Piece.token]
  · simpa only [Derivation.tree, Derivation.phrase, Phrase.tree] using sameTree

theorem Operator.exists_symbol (spelled : Operator.ofLexeme? sign.lexeme = some operator) :
    ∃ symbol c, sign.lexeme = .symbol symbol ∧ symbol.text.toList = [c] := by
  cases shape : sign.lexeme with
  | number => rw [shape] at spelled; cases spelled
  | data => rw [shape] at spelled; cases spelled
  | symbol symbol =>
    rw [shape] at spelled
    cases symbol <;> cases spelled <;> exact ⟨_, _, rfl, rfl⟩

theorem Renders.infixed (spelled : Operator.ofLexeme? sign.lexeme = some operator)
    (leftRenders : Renders operator.leftCategory leftText left leftDepth)
    (rightRenders : Renders operator.rightCategory rightText right rightDepth) :
    Renders operator.category (leftText ++ ' ' :: (sign.lexeme.text.toList ++ ' ' :: rightText))
      (.group sign [left, right]) (max leftDepth (1 + rightDepth)) := by
  intro offset rest ends
  obtain ⟨symbol, c, isSymbol, text⟩ := Operator.exists_symbol spelled
  have textEq : sign.lexeme.text.toList = [c] := by rw [isSymbol]; exact text
  obtain ⟨leftPieces, leftDerivation, leftSplit, leftYields, leftSame, rfl⟩ :=
    leftRenders offset (' ' :: c :: ' ' :: (rightText ++ rest)) (by rintro d ⟨⟩; decide)
  obtain ⟨rightPieces, rightDerivation, rightSplit, rightYields, rightSame, rfl⟩ :=
    rightRenders (offset + leftText.length + 3) rest ends
  have behind : Split (offset + leftText.length) (' ' :: c :: ' ' :: (rightText ++ rest))
      (⟨offset + leftText.length + 1, [c], .symbol symbol⟩ :: rightPieces) rest :=
    .blank rfl (.symbol symbol text (fun _ minus => by cases minus) (.blank rfl rightSplit))
  have whole := leftSplit.append behind (by rw [List.length_append]; omega)
  rw [isSymbol] at spelled
  rw [textEq, List.append_assoc]
  refine ⟨_, .infixed operator rfl leftDerivation
    ⟨.symbol symbol, some (offset + leftText.length + 1)⟩ spelled rightDerivation, whole, ?_, ?_, rfl⟩
  · simp only [Derivation.yield] at leftYields rightYields
    simp [Derivation.yield, Derivation.phrase, Phrase.yield, leftYields, rightYields, Piece.token]
  · simp only [Derivation.tree] at leftSame rightSame
    simp [Derivation.tree, Derivation.phrase, Phrase.tree, Expr.same, Expr.sameAll, isSymbol,
      leftSame, rightSame]

end Rendering

namespace Expr

variable {tree operand left right : Expr} {sign : Token} {operator : Operator}

theorem parenthesized_negation (isMinus : sign.lexeme = .symbol .minus) :
    (group sign [operand]).parenthesized.toList =
      '(' :: ('-' :: operand.parenthesized.toList ++ [')']) := by
  simp [parenthesized, parenthesizedAll, enclose, isMinus, Lexeme.kind, Symbol.text]

theorem parenthesized_infixed (spelled : Operator.ofLexeme? sign.lexeme = some operator) :
    (group sign [left, right]).parenthesized.toList =
      '(' :: (left.parenthesized.toList ++
        ' ' :: (sign.lexeme.text.toList ++ ' ' :: right.parenthesized.toList) ++ [')']) := by
  obtain ⟨symbol, -, isSymbol, -⟩ := Operator.exists_symbol spelled
  simp [parenthesized, parenthesizedAll, enclose, isSymbol, Lexeme.kind, Lexeme.text,
    String.intercalate_cons_cons]

/-- By the grammar's rules, one for each form of tree. -/
theorem WellFormed.renders (formed : WellFormed tree) :
    Renders .unary tree.parenthesized.toList tree tree.need := by
  induction formed with
  | @constant token isConstant =>
    refine .atom ?_ fun rest ends => ?_
    · rcases isConstant with same | same <;> rw [same] <;> rfl
    · rcases isConstant with same | same <;> rw [same] <;> exact .symbol rfl nofun
  | number spelled isDecimal =>
    refine .atom (by rw [spelled]; rfl) fun rest ends => ?_
    rw [spelled]
    exact isDecimal.munch ends
  | @negation sign operand isMinus _ ih =>
    have renders := ((ih.negation isMinus).loosen (show Category.sum.rank ≤ _ by decide)).parens
    rw [parenthesized_negation isMinus, need]
    rwa [← Nat.add_assoc] at renders
  | @infixed sign operator left right spelled _ _ ihLeft ihRight =>
    have leftRenders := ihLeft.loosen operator.leftCategory.rank_le
    have rightRenders := ihRight.loosen operator.rightCategory.rank_le
    have whole := leftRenders.infixed spelled rightRenders
    have renders := (whole.loosen (show Category.sum.rank ≤ _ from Nat.zero_le _)).parens
    rw [parenthesized_infixed spelled, need]
    rwa [← Nat.add_max_add_left, ← Nat.add_assoc] at renders

/-- The parenthesized text of a tree reads as that tree, unless the reader may not go as deep as it
needs to; then that is its only complaint. -/
theorem ofText_parenthesized (formed : WellFormed tree) (limit : Int) :
    ((tree.need : Int) ≤ limit →
      ∃ read, ofText limit tree.parenthesized = .ok read ∧ read.same tree) ∧
    (limit < tree.need →
      ofText limit tree.parenthesized = .error (.parsing (.tooDeep limit))) := by
  -- the text stands alone, from the first offset on
  obtain ⟨pieces, derivation, split, yields, sameTree, depthEq⟩ :=
    formed.renders.loosen (show Category.sum.rank ≤ _ from Nat.zero_le _) 0 [] nofun
  rw [List.append_nil] at split
  have parsed := ofTokens_derivation limit derivation (some tree.parenthesized.length)
  rw [yields, depthEq] at parsed
  have lexed : ofText limit tree.parenthesized = (ofTokens limit (pieces.map Piece.token ++
      [⟨.symbol .endOfInput, some tree.parenthesized.length⟩])).1.mapError .parsing := by
    rw [ofText, split.tokenize_eq]
    rfl
  constructor
  · intro fits
    refine ⟨derivation.tree, ?_, sameTree⟩
    rw [lexed, parsed.1 fits]
    rfl
  · intro deep
    rw [lexed, parsed.2 deep]
    rfl

/-- `((1 ± 2.50) ^ (-e))` is read with five levels and not with four. -/
theorem ofText_parenthesized_power :
    let uncertain := group ⟨.symbol .plusMinus, none⟩
      [.atom ⟨.number ⟨"1", ""⟩, none⟩, .atom ⟨.number ⟨"2", "50"⟩, none⟩]
    let tree := group ⟨.symbol .caret, none⟩
      [uncertain, group ⟨.symbol .minus, none⟩ [.atom ⟨.symbol .euler, none⟩]]
    WellFormed tree ∧ (∃ read, ofText 5 tree.parenthesized = .ok read ∧ read.same tree) ∧
      ofText 4 tree.parenthesized = .error (.parsing (.tooDeep 4)) := by
  intro uncertain tree
  have one : Literal.IsDecimal ⟨"1", ""⟩ := ⟨by simp, by simp, by simp⟩
  have second : Literal.IsDecimal ⟨"2", "50"⟩ := ⟨by simp, by simp, by simp⟩
  have formed : WellFormed tree :=
    .infixed rfl (.infixed rfl (.number rfl one) (.number rfl second))
      (.negation rfl (.constant (.inl rfl)))
  have needs : tree.need = 5 := rfl
  refine ⟨formed, (ofText_parenthesized formed 5).1 ?_, (ofText_parenthesized formed 4).2 ?_⟩
  · rw [needs]
    decide
  · rw [needs]
    decide

end Expr
end Uncertainty

import Uncertainty.Proofs.Calculation.Offsets

/-!
Unique readability of S-expressions. Nothing in the text of a group says how many operands it has,
but no text of a tree goes on behind the end of another one: an atom ends in front of a blank or a
closing parenthesis, a group with the parenthesis that closes it.
-/
namespace Uncertainty

section Words

variable {word word' rest rest' : List Char} {token : Token} {literal : Literal} {sign : Token}
variable {operator : Operator}

/-- Neither a blank nor a parenthesis. -/
def IsWord (word : List Char) : Prop :=
  ∀ c ∈ word, c ≠ ' ' ∧ c ≠ '(' ∧ c ≠ ')'

/-- No tree goes on here. -/
def EndsTree (rest : List Char) : Prop :=
  ∀ c ∈ rest.head?, c = ' ' ∨ c = ')'

/-- What a word goes on with is no end of a tree. -/
theorem IsWord.eq_nil (isWord : IsWord word) (ends : EndsTree (word ++ rest)) : word = [] := by
  cases word with
  | nil => rfl
  | cons c word =>
    obtain ⟨noBlank, -, noClosing⟩ := isWord c List.mem_cons_self
    rcases ends c rfl with blank | closing
    · exact absurd blank noBlank
    · exact absurd closing noClosing

theorem IsWord.append_inj (isWord : IsWord word) (isWord' : IsWord word') (ends : EndsTree rest)
    (ends' : EndsTree rest') (same : word ++ rest = word' ++ rest') :
    word = word' ∧ rest = rest' := by
  rcases List.append_eq_append_iff.mp same with ⟨more, rfl, rfl⟩ | ⟨more, rfl, rfl⟩
  · have noMore := IsWord.eq_nil (fun c member => isWord' c (List.mem_append_right _ member)) ends
    rw [noMore, List.append_nil, List.nil_append]
    exact ⟨rfl, rfl⟩
  · have noMore := IsWord.eq_nil (fun c member => isWord c (List.mem_append_right _ member)) ends'
    rw [noMore, List.append_nil, List.nil_append]
    exact ⟨rfl, rfl⟩

theorem Literal.IsDecimal.isWord (isDecimal : literal.IsDecimal) :
    IsWord literal.toText.toList := by
  intro c member
  rcases isDecimal.isStretch.1 c member with digit | rfl
  · refine ⟨?_, ?_, ?_⟩ <;> (rintro rfl; cases digit)
  · decide

theorem Literal.IsDecimal.eq_of_toText {literal' : Literal} (isDecimal : literal.IsDecimal)
    (isDecimal' : literal'.IsDecimal) (same : literal.toText = literal'.toText) :
    literal = literal' := by
  have read := isDecimal.writes.ofText_eq
  rw [same, isDecimal'.writes.ofText_eq] at read
  exact read.symm

end Words

namespace Expr

variable {tree other : Expr} {trees others operands : List Expr} {token sign : Token}
variable {rest rest' : List Char}

/-- Trees of decimal literals and constants under operators, each with however many operands. -/
inductive Arithmetic : Expr → Prop where
  | constant {token : Token}
      (isConstant : token.lexeme = .symbol .euler ∨ token.lexeme = .symbol .pi) :
      Arithmetic (.atom token)
  | number {token : Token} {literal : Literal} (spelled : token.lexeme = .number literal)
      (isDecimal : literal.IsDecimal) : Arithmetic (.atom token)
  | group {sign : Token} {operator : Operator} {operands : List Expr}
      (spelled : Operator.ofLexeme? sign.lexeme = some operator)
      (members : ∀ operand ∈ operands, Arithmetic operand) : Arithmetic (.group sign operands)

namespace Arithmetic

theorem isWord (arithmetic : Arithmetic (.atom token)) : IsWord token.lexeme.text.toList := by
  cases arithmetic with
  | constant isConstant =>
    have euler : IsWord ['e'] := List.forall_mem_singleton.mpr (by decide)
    have pi : IsWord ['π'] := List.forall_mem_singleton.mpr (by decide)
    rcases isConstant with same | same
    · rw [same]
      exact euler
    · rw [same]
      exact pi
  | number spelled isDecimal =>
    rw [spelled]
    exact isDecimal.isWord

theorem text_ne_nil (arithmetic : Arithmetic (.atom token)) : token.lexeme.text.toList ≠ [] := by
  cases arithmetic with
  | constant isConstant => rcases isConstant with same | same <;> rw [same] <;> decide
  | @number _ literal spelled isDecimal =>
    rw [spelled]
    have munched : Munch literal.toText.toList (.number literal) [] := isDecimal.munch nofun
    exact munched.ne_nil

/-- The text of a literal starts with a digit, that of a constant does not. -/
theorem toText_ne_constant {literal : Literal} {lexeme : Lexeme} (isDecimal : literal.IsDecimal)
    (isConstant : lexeme = .symbol .euler ∨ lexeme = .symbol .pi) :
    literal.toText ≠ lexeme.text := by
  intro same
  have stretch := isDecimal.isStretch.1
  rw [same] at stretch
  rcases isConstant with rfl | rfl
  · cases stretch 'e' List.mem_cons_self with
    | inl digit => cases digit
    | inr point => cases point
  · cases stretch 'π' List.mem_cons_self with
    | inl digit => cases digit
    | inr point => cases point

theorem lexeme_eq {token' : Token} (arithmetic : Arithmetic (.atom token))
    (arithmetic' : Arithmetic (.atom token')) (same : token.lexeme.text = token'.lexeme.text) :
    token.lexeme = token'.lexeme := by
  cases arithmetic with
  | constant isConstant =>
    cases arithmetic' with
    | constant isConstant' =>
      obtain ⟨symbol, isSymbol⟩ : ∃ symbol, token.lexeme = .symbol symbol :=
        isConstant.elim (⟨_, ·⟩) (⟨_, ·⟩)
      obtain ⟨symbol', isSymbol'⟩ : ∃ symbol, token'.lexeme = .symbol symbol :=
        isConstant'.elim (⟨_, ·⟩) (⟨_, ·⟩)
      rw [isSymbol, isSymbol'] at same ⊢
      rw [Symbol.text_injective same]
    | number spelled isDecimal =>
      rw [spelled] at same
      exact absurd same.symm (toText_ne_constant isDecimal isConstant)
  | number spelled isDecimal =>
    cases arithmetic' with
    | constant isConstant' =>
      rw [spelled] at same
      exact absurd same (toText_ne_constant isDecimal isConstant')
    | number spelled' isDecimal' =>
      rw [spelled, spelled'] at same ⊢
      rw [isDecimal.eq_of_toText isDecimal' same]

end Arithmetic

/-- In front of whatever ends a tree, the text of `tree` is that of no other tree. -/
def Determined (tree : Expr) : Prop :=
  ∀ other rest rest', other.Arithmetic → EndsTree rest → EndsTree rest' →
    tree.sexpr.toList ++ rest = other.sexpr.toList ++ rest' → tree.same other ∧ rest = rest'

theorem sexpr_group (sign : Token) (operands : List Expr) (rest : List Char) :
    (group sign operands).sexpr.toList ++ rest =
      '(' :: (sign.lexeme.kind.toList ++ ((sexprTail operands).toList ++ ')' :: rest)) := by
  simp [sexpr]

theorem sexprTail_cons (tree : Expr) (trees : List Expr) (rest : List Char) :
    (sexprTail (tree :: trees)).toList ++ rest =
      ' ' :: (tree.sexpr.toList ++ ((sexprTail trees).toList ++ rest)) := by
  simp [sexprTail]

theorem endsTree_sexprTail (trees : List Expr) :
    EndsTree ((sexprTail trees).toList ++ ')' :: rest) := by
  cases trees with
  | nil =>
    rintro c ⟨⟩
    exact .inr rfl
  | cons tree trees =>
    rw [sexprTail_cons]
    rintro c ⟨⟩
    exact .inl rfl

theorem atom_ne_group (arithmetic : Arithmetic (.atom token)) :
    (atom token).sexpr.toList ++ rest ≠ (group sign operands).sexpr.toList ++ rest' := by
  obtain ⟨c, word, isText⟩ := List.exists_cons_of_ne_nil arithmetic.text_ne_nil
  have noOpening := (arithmetic.isWord c (isText ▸ List.mem_cons_self)).2.1
  intro same
  rw [sexpr_group, sexpr, isText] at same
  exact noOpening (List.cons.inj same).1

theorem determined_atom (arithmetic : Arithmetic (.atom token)) : (atom token).Determined := by
  intro other rest rest' arithmetic' ends ends' same
  cases other with
  | atom token' =>
    obtain ⟨words, rests⟩ :=
      arithmetic.isWord.append_inj arithmetic'.isWord ends ends' same
    have lexemes := arithmetic.lexeme_eq arithmetic' (String.toList_inj.mp words)
    exact ⟨by simpa [Expr.same] using lexemes, rests⟩
  | group sign operands => exact absurd same (atom_ne_group arithmetic)

theorem sameAll_of_sexprTail (members : ∀ operand ∈ trees, operand.Determined)
    (arithmetic : ∀ operand ∈ others, operand.Arithmetic)
    (same : (sexprTail trees).toList ++ ')' :: rest = (sexprTail others).toList ++ ')' :: rest') :
    sameAll trees others ∧ rest = rest' := by
  induction trees generalizing others with
  | nil =>
    cases others with
    | nil => exact ⟨rfl, (List.cons.inj same).2⟩
    | cons other others =>
      rw [sexprTail_cons] at same
      cases (List.cons.inj same).1
  | cons tree trees ih =>
    cases others with
    | nil =>
      rw [sexprTail_cons] at same
      cases (List.cons.inj same).1
    | cons other others =>
      rw [sexprTail_cons, sexprTail_cons] at same
      rw [List.forall_mem_cons] at members arithmetic
      obtain ⟨first, behind⟩ := members.1 other _ _ arithmetic.1 (endsTree_sexprTail trees)
        (endsTree_sexprTail others) (List.cons.inj same).2
      obtain ⟨further, rests⟩ := ih members.2 arithmetic.2 behind
      exact ⟨by simp [sameAll, first, further], rests⟩

theorem kind_injective {operator operator' : Operator} {sign' : Token}
    (spelled : Operator.ofLexeme? sign.lexeme = some operator)
    (spelled' : Operator.ofLexeme? sign'.lexeme = some operator')
    (same : sign.lexeme.kind.toList ++ rest = sign'.lexeme.kind.toList ++ rest') :
    sign.lexeme = sign'.lexeme ∧ rest = rest' := by
  obtain ⟨symbol, c, isSymbol, text⟩ := Operator.exists_symbol spelled
  obtain ⟨symbol', c', isSymbol', text'⟩ := Operator.exists_symbol spelled'
  rw [isSymbol, isSymbol', Lexeme.kind, Lexeme.kind, text, text'] at same
  obtain ⟨signs, rests⟩ := List.cons.inj same
  have texts : symbol.text = symbol'.text := by rw [← String.toList_inj, text, text', signs]
  rw [isSymbol, isSymbol', Symbol.text_injective texts]
  exact ⟨rfl, rests⟩

theorem determined_group {operator : Operator}
    (spelled : Operator.ofLexeme? sign.lexeme = some operator)
    (members : ∀ operand ∈ operands, operand.Determined) : (group sign operands).Determined := by
  intro other rest rest' arithmetic' ends ends' same
  cases other with
  | atom token => exact absurd same.symm (atom_ne_group arithmetic')
  | group sign' operands' =>
    cases arithmetic' with
    | group spelled' arithmetic' =>
      rw [sexpr_group, sexpr_group] at same
      obtain ⟨signs, tails⟩ := kind_injective spelled spelled' (List.cons.inj same).2
      obtain ⟨all, rests⟩ := sameAll_of_sexprTail members arithmetic' tails
      exact ⟨by simp [Expr.same, signs, all], rests⟩

/-- By the forms of the tree; the other one need not be of the same form. -/
theorem Arithmetic.determined (arithmetic : tree.Arithmetic) : tree.Determined := by
  induction arithmetic with
  | constant isConstant => exact determined_atom (.constant isConstant)
  | number spelled isDecimal => exact determined_atom (.number spelled isDecimal)
  | group spelled members ih => exact determined_group spelled ih

theorem textlessAmong?_eq_none (members : ∀ operand ∈ operands, operand.textless? = none) :
    textlessAmong? operands = none := by
  induction operands with
  | nil => rfl
  | cons operand operands ih =>
    rw [List.forall_mem_cons] at members
    rw [textlessAmong?, members.1, ih members.2, Option.or_none]

theorem Arithmetic.textless?_eq_none (arithmetic : tree.Arithmetic) : tree.textless? = none := by
  induction arithmetic with
  | constant isConstant => rcases isConstant with same | same <;> rw [textless?, same] <;> rfl
  | number spelled isDecimal =>
    rw [textless?, spelled]
    rfl
  | group spelled members ih => rw [textless?, textlessAmong?_eq_none ih]

theorem Arithmetic.sexpr?_eq (arithmetic : tree.Arithmetic) : tree.sexpr? = .ok tree.sexpr := by
  rw [sexpr?, arithmetic.textless?_eq_none]
  rfl

mutual

theorem sexpr_bare (tree : Expr) : tree.bare.sexpr = tree.sexpr := by
  cases tree with
  | atom token => rfl
  | group sign operands =>
    rw [bare, sexpr, sexpr, sexprTail_bareAll operands]
    rfl

theorem sexprTail_bareAll (trees : List Expr) : sexprTail (bareAll trees) = sexprTail trees := by
  cases trees with
  | nil => rfl
  | cons tree trees =>
    rw [bareAll, sexprTail, sexprTail, sexpr_bare tree, sexprTail_bareAll trees]

end

/-- Two trees have one S-expression if and only if they are the same, offsets aside. -/
theorem exists_sexpr_eq_iff (arithmetic : tree.Arithmetic) (arithmetic' : other.Arithmetic) :
    ∃ text text', tree.sexpr? = .ok text ∧ other.sexpr? = .ok text' ∧
      (text = text' ↔ tree.same other) := by
  refine ⟨_, _, arithmetic.sexpr?_eq, arithmetic'.sexpr?_eq, ?_⟩
  constructor
  · intro sameText
    exact (arithmetic.determined other [] [] arithmetic' nofun nofun (by rw [sameText])).1
  · intro sameTree
    rw [same_iff_bare] at sameTree
    rw [← sexpr_bare tree, sameTree, sexpr_bare]

/-- `(- (- 1) 2)` and `(- (- 1 2))` differ only in where a parenthesis closes. -/
theorem sexpr_ne_of_nested_differences :
    let numeral (digits : String) := atom ⟨.number ⟨digits, ""⟩, none⟩
    let minus := group ⟨.symbol .minus, none⟩
    let tree := minus [minus [numeral "1"], numeral "2"]
    let other := minus [minus [numeral "1", numeral "2"]]
    tree.Arithmetic ∧ other.Arithmetic ∧ ∃ text text', tree.sexpr? = .ok text ∧
      other.sexpr? = .ok text' ∧ text ≠ text' := by
  intro numeral minus tree other
  have one : Arithmetic (numeral "1") := .number rfl ⟨by simp, by simp, by simp⟩
  have two : Arithmetic (numeral "2") := .number rfl ⟨by simp, by simp, by simp⟩
  have difference {operands : List Expr} (members : ∀ operand ∈ operands, operand.Arithmetic) :
      (minus operands).Arithmetic := by
    have isOperator : Operator.ofLexeme? (.symbol .minus) = some .sub := rfl
    exact .group isOperator members
  have arithmetic : tree.Arithmetic :=
    difference (by simpa using ⟨difference (by simpa using one), two⟩)
  have arithmetic' : other.Arithmetic := difference (by simpa using difference (by simp [one, two]))
  obtain ⟨text, text', shown, shown', iff⟩ := exists_sexpr_eq_iff arithmetic arithmetic'
  refine ⟨arithmetic, arithmetic', text, text', shown, shown', fun sameText => ?_⟩
  cases iff.mp sameText

end Expr
end Uncertainty

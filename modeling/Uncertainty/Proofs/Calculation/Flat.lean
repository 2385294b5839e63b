import Mathlib.Data.List.Induction
import Uncertainty.Proofs.Calculation.Respelling
import Uncertainty.Proofs.Expr.Nesting
import Uncertainty.Proofs.Expr.Viability

/-!
The limit of depth for expressions without parentheses and without signs in front of operands. Such
an expression still nests: an operator begins its right operand, which goes on until an operator
binds less tightly. Of the sums, the products and the pairs at most one operator each is open at a
time, so only powers of powers are limited.
-/
namespace Uncertainty

theorem dropWhile_eq_filter_of_falling {bound : Nat} {powers : List Nat}
    (falling : powers.Pairwise (· ≥ ·)) :
    powers.dropWhile (bound < ·) = powers.filter (· ≤ bound) := by
  induction falling with
  | nil => rfl
  | @cons power powers below _ ih =>
    by_cases ended : bound < power
    · rw [List.dropWhile_cons_of_pos (by simpa using ended),
        List.filter_cons_of_neg (by simpa using ended), ih]
    · rw [List.dropWhile_cons_of_neg (by simpa using ended), List.filter_eq_self.mpr]
      intro other member
      rcases List.mem_cons.mp member with rfl | member
      · simpa using ended
      · have := below other member
        simp only [decide_eq_true_eq]
        omega

namespace Operator

/-- The operators whose right operand has not ended: none of those behind it binds less tightly. -/
def unfinished : List Operator → List Operator
  | [] => []
  | operator :: later =>
    if ∀ other ∈ later, operator.rightPower ≤ other.leftPower then operator :: unfinished later
    else unfinished later

variable {operators : List Operator} {last : Operator}

theorem rightPower_mono {first second : Operator} (within : first.rightPower ≤ second.leftPower) :
    first.rightPower ≤ second.rightPower := by
  revert within
  cases first <;> cases second <;> decide

theorem unfinished_concat : unfinished (operators ++ [last]) =
    (unfinished operators).filter (·.rightPower ≤ last.leftPower) ++ [last] := by
  induction operators with
  | nil => simp [unfinished]
  | cons operator later ih =>
    have both : (∀ other ∈ later ++ [last], operator.rightPower ≤ other.leftPower) ↔
        (∀ other ∈ later, operator.rightPower ≤ other.leftPower) ∧
          operator.rightPower ≤ last.leftPower := by
      simp [or_imp, forall_and]
    rw [List.cons_append, unfinished, unfinished, ih]
    by_cases goesOn : ∀ other ∈ later, operator.rightPower ≤ other.leftPower
    · by_cases binds : operator.rightPower ≤ last.leftPower
      · rw [if_pos (both.mpr ⟨goesOn, binds⟩), if_pos goesOn,
          List.filter_cons_of_pos (by simpa using binds), List.cons_append]
      · rw [if_neg (fun all => binds (both.mp all).2), if_pos goesOn,
          List.filter_cons_of_neg (by simpa using binds)]
    · rw [if_neg (fun all => goesOn (both.mp all).1), if_neg goesOn]

theorem unfinished_sublist : (unfinished operators).Sublist operators := by
  induction operators with
  | nil => exact .slnil
  | cons operator later ih =>
    rw [unfinished]
    split
    · exact ih.cons_cons operator
    · exact ih.cons operator

/-- What binds tightly enough for the operand of one binds tightly enough for all around it. -/
theorem unfinished_pairwise :
    (unfinished operators).Pairwise fun outer inner => outer.rightPower ≤ inner.leftPower := by
  induction operators with
  | nil => exact .nil
  | cons operator later ih =>
    rw [unfinished]
    split
    case isTrue goesOn =>
      exact .cons (fun other member => goesOn other (unfinished_sublist.subset member)) ih
    case isFalse => exact ih

/-- The powers of the expressions that are begun behind some operators, the innermost first. -/
def begun (operators : List Operator) : List Nat :=
  (unfinished operators).reverse.map rightPower ++ [0]

theorem length_begun : (begun operators).length = (unfinished operators).length + 1 := by
  simp [begun]

theorem begun_falling : (begun operators).Pairwise (· ≥ ·) := by
  refine List.pairwise_append.mpr ⟨?_, List.pairwise_singleton .., fun power _ last member => ?_⟩
  · rw [List.pairwise_map, List.pairwise_reverse]
    exact unfinished_pairwise.imp rightPower_mono
  · rw [List.mem_singleton.mp member]
    exact Nat.zero_le power

theorem begun_concat : begun (operators ++ [last]) =
    last.rightPower :: (begun operators).dropWhile (last.leftPower < ·) := by
  rw [dropWhile_eq_filter_of_falling begun_falling, begun, begun, unfinished_concat,
    List.reverse_append, List.reverse_singleton, List.singleton_append, List.map_cons,
    List.cons_append, List.filter_append, List.filter_map, List.filter_reverse]
  rfl

theorem not_binds_of_category {first second : Operator} (same : first.category = second.category)
    (noPower : first.category ≠ .power) : ¬ first.rightPower ≤ second.leftPower := by
  revert same noPower
  cases first <;> cases second <;> decide

/-- Of the operators of a category at most one is unfinished, if they associate to the left. -/
theorem countP_unfinished_category {category : Category} (noPower : category ≠ .power) :
    (unfinished operators).countP (·.category = category) ≤ 1 := by
  have binds := (@unfinished_pairwise operators).filter (·.category = category)
  have inside : ∀ operator ∈ (unfinished operators).filter (·.category = category),
      operator.category = category := fun operator member => by
    simpa using (List.mem_filter.mp member).2
  rw [List.countP_eq_length_filter]
  generalize (unfinished operators).filter (·.category = category) = chosen at binds inside ⊢
  rcases chosen with _ | ⟨outer, _ | ⟨inner, more⟩⟩
  · exact Nat.zero_le _
  · exact Nat.le_refl _
  · have outerCategory := inside outer List.mem_cons_self
    have innerCategory := inside inner (List.mem_cons_of_mem _ List.mem_cons_self)
    exact absurd (List.rel_of_pairwise_cons binds List.mem_cons_self)
      (not_binds_of_category (outerCategory.trans innerCategory.symm) (outerCategory ▸ noPower))

theorem one_category (operator : Operator) :
    (if operator.category = .sum then 1 else 0) + (if operator.category = .product then 1 else 0) +
        (if operator.category = .uncertain then 1 else 0) +
      (if operator = .pow then 1 else 0) = 1 := by
  cases operator <;> rfl

theorem length_eq_categories (operators : List Operator) : operators.length =
    operators.countP (·.category = .sum) + operators.countP (·.category = .product) +
      operators.countP (·.category = .uncertain) + operators.count .pow := by
  induction operators with
  | nil => rfl
  | cons operator later ih =>
    have one := one_category operator
    simp only [List.length_cons, List.countP_cons, List.count_cons, decide_eq_true_eq, beq_iff_eq]
    omega

theorem length_unfinished_le :
    (unfinished operators).length ≤ 3 + (unfinished operators).count .pow := by
  have sums := @countP_unfinished_category operators .sum nofun
  have products := @countP_unfinished_category operators .product nofun
  have pairs := @countP_unfinished_category operators .uncertain nofun
  rw [length_eq_categories]
  omega

/-- A power that is unfinished stands behind all sums and products. -/
theorem exists_stretch (operators : List Operator) : ∃ before stretch,
    operators = before ++ stretch ∧
      (∀ operator ∈ stretch, operator.category ≠ .sum ∧ operator.category ≠ .product) ∧
      (unfinished operators).count .pow ≤ stretch.count .pow := by
  induction operators with
  | nil => exact ⟨[], [], rfl, nofun, Nat.le_refl _⟩
  | cons operator later ih =>
    by_cases binds : operator = .pow ∧ ∀ other ∈ later, operator.rightPower ≤ other.leftPower
    · obtain ⟨rfl, binds⟩ := binds
      have opened : unfinished (.pow :: later) = .pow :: unfinished later := if_pos binds
      refine ⟨[], .pow :: later, rfl, ?_, ?_⟩
      · rintro other (_ | ⟨_, member⟩)
        · decide
        · have := binds other member
          revert this
          cases other <;> decide
      · rw [opened, List.count_cons_self, List.count_cons_self]
        exact Nat.succ_le_succ (unfinished_sublist.count_le _)
    · obtain ⟨before, stretch, same, tight, fewer⟩ := ih
      refine ⟨operator :: before, stretch, congrArg _ same, tight, Nat.le_trans ?_ fewer⟩
      rw [unfinished]
      split
      case isTrue goesOn =>
        rw [List.count_cons_of_ne fun isPower => binds ⟨isPower, goesOn⟩]
      case isFalse => exact Nat.le_refl _

end Operator

namespace Expr

variable {tokens front back : List Token} {token : Token} {operator : Operator} {place : Place}
variable {limit : Int} {text : String}

/-- Tokens without parentheses and without a sign in front of an operand. -/
structure IsFlat (tokens : List Token) : Prop where
  noParen : ∀ token ∈ tokens,
    token.lexeme ≠ .symbol .leftParen ∧ token.lexeme ≠ .symbol .rightParen
  noSign : ∀ front sign back, tokens = front ++ sign :: back →
    sign.lexeme = .symbol .minus → ¬ ExpectsOperand front

theorem IsFlat.of_append (flat : IsFlat (front ++ back)) : IsFlat front := by
  refine ⟨fun token member => flat.noParen token (List.mem_append_left _ member), ?_⟩
  rintro before sign behind rfl
  exact flat.noSign before sign (behind ++ back) (by simp)

theorem IsFlat.append (flatFront : IsFlat front) (flatBack : IsFlat back) :
    IsFlat (front ++ back) := by
  refine ⟨fun token member => ?_, fun before sign behind same isMinus expects => ?_⟩
  · exact (List.mem_append.mp member).elim (flatFront.noParen token) (flatBack.noParen token)
  · rcases List.append_eq_append_iff.mp same with ⟨between, rfl, further⟩ | ⟨between, rfl, further⟩
    · refine flatBack.noSign between sign behind further isMinus fun last atEnd => ?_
      exact expects last (by simp [List.getLast?_append, Option.mem_def.mp atEnd])
    · cases between with
      | nil => exact flatBack.noSign [] sign behind further.symm isMinus nofun
      | cons _ between =>
        obtain ⟨rfl, -⟩ := List.cons.inj further
        exact flatFront.noSign before sign between rfl isMinus expects

def operators (tokens : List Token) : List Operator :=
  tokens.filterMap fun token => Operator.ofLexeme? token.lexeme

theorem operators_append : operators (front ++ back) = operators front ++ operators back :=
  List.filterMap_append

theorem operators_operator (spelled : Operator.ofLexeme? token.lexeme = some operator) :
    operators [token] = [operator] := by
  simp [operators, spelled]

theorem operators_atom (isAtom : token.lexeme.isAtom) : operators [token] = [] := by
  cases spelled : Operator.ofLexeme? token.lexeme with
  | none => simp [operators, spelled]
  | some operator => simp [isAtom_of_operator spelled] at isAtom

/-- The nest at a place behind some operators. -/
def nestAt (operators : List Operator) : Place → Nest
  | .operandDue _ => .operandDue (Operator.begun operators)
  | .operandRead _ => .operandRead (Operator.begun operators)

theorem length_powers_nestAt (operators : List Operator) (place : Place) :
    (nestAt operators place).powers.length = (Operator.unfinished operators).length + 1 := by
  cases place <;> exact Operator.length_begun

/-- In a flat expression the nest depends on the operators alone. -/
theorem next?_of_flat (flat : IsFlat (front ++ [token]))
    (reached : (Place.operandDue []).after? front = some place) :
    (nestAt (operators front) place).next? token =
      (place.next? token).map (nestAt (operators (front ++ [token]))) := by
  obtain ⟨noOpening, noClosing⟩ := flat.noParen token (by simp)
  rw [operators_append]
  cases place with
  | operandDue opened =>
    have due : ExpectsOperand front := (expectsOperand_iff reached).mpr rfl
    have noMinus : token.lexeme ≠ .symbol .minus := fun isMinus =>
      flat.noSign front token [] rfl isMinus due
    by_cases isAtom : token.lexeme.isAtom
    · rw [nestAt, Nest.next?_atom isAtom, Place.next?_atom isAtom, operators_atom isAtom,
        List.append_nil]
      rfl
    · simp [nestAt, Nest.next?, Place.next?, isAtom, noOpening, noMinus]
  | operandRead opened =>
    cases spelled : Operator.ofLexeme? token.lexeme with
    | some operator =>
      rw [nestAt, Nest.next?_operator spelled, Place.next?_operator spelled,
        operators_operator spelled, ← Operator.begun_concat]
      rfl
    | none => simp [nestAt, Nest.next?, Place.next?, noClosing, spelled]

theorem after?_of_flat (flat : IsFlat front) : (Nest.operandDue [0]).after? front =
    ((Place.operandDue []).after? front).map (nestAt (operators front)) := by
  induction front using List.reverseRecOn with
  | nil => rfl
  | append_singleton front token ih =>
    rw [Nest.after?_append, Place.after?_append, ih flat.of_append]
    cases reached : (Place.operandDue []).after? front with
    | none => rfl
    | some place => simpa [Nest.after?, Place.after?] using next?_of_flat flat reached

/-- On a flat list of tokens the parser fails for its depth exactly if the right operands of too
many operators have not ended somewhere. -/
theorem ofTokens_tooDeep_iff_of_flat (flat : IsFlat tokens) (limit : Int) :
    (∃ limit', (ofTokens limit tokens).1 = .error (.tooDeep limit')) ↔
      ∃ front back place, tokens = front ++ back ∧
        (Place.operandDue []).after? front = some place ∧
        limit.toNat < (Operator.unfinished (operators front)).length + 1 := by
  rw [ofTokens_tooDeep_iff]
  constructor
  · rintro ⟨front, back, nest, rfl, reached, high⟩
    rw [after?_of_flat flat.of_append] at reached
    obtain ⟨place, reached', rfl⟩ := Option.map_eq_some_iff.mp reached
    exact ⟨front, back, place, rfl, reached', length_powers_nestAt _ place ▸ high⟩
  · rintro ⟨front, back, place, rfl, reached, high⟩
    refine ⟨front, back, nestAt (operators front) place, rfl, ?_, ?_⟩
    · rw [after?_of_flat flat.of_append, reached, Option.map_some]
    · rwa [length_powers_nestAt]

theorem length_unfinished_of_stretches {most : Nat}
    (few : ∀ front stretch back, tokens = front ++ stretch ++ back →
      (∀ operator ∈ operators stretch, operator.category ≠ .sum ∧ operator.category ≠ .product) →
        (operators stretch).count .pow ≤ most)
    (same : tokens = front ++ back) :
    (Operator.unfinished (operators front)).length ≤ most + 3 := by
  obtain ⟨before, stretch, split, tight, fewer⟩ := Operator.exists_stretch (operators front)
  obtain ⟨first, second, rfl, rfl, rfl⟩ := List.filterMap_eq_append_iff.mp split
  have atMost := few first second back same tight
  have length := @Operator.length_unfinished_le (operators (first ++ second))
  unfold operators at *
  omega

theorem exists_inner_of_tokenize (lexed : Token.tokenize text = .ok tokens) : ∃ inner offset,
    tokens = inner ++ [⟨.symbol .endOfInput, offset⟩] ∧
      ∀ token ∈ inner, token.lexeme ≠ .symbol .endOfInput := by
  obtain ⟨pieces, split, rfl⟩ := Split.of_tokenize lexed
  have reaches : text.length + ([] : List Char).length = 0 + text.toList.length := by
    rw [String.length_toList, List.length_nil, Nat.zero_add, Nat.add_zero]
  have layout := split.layout reaches
  refine ⟨_, _, rfl, fun token member => ?_⟩
  obtain ⟨piece, inPieces, rfl⟩ := List.mem_map.mp member
  exact layout.inner piece inPieces

/-- Tokens of a text lead to a place exactly if they begin an expression and more tokens follow. -/
theorem exists_place_iff (lexed : Token.tokenize text = .ok (front ++ back)) :
    (∃ place, (Place.operandDue []).after? front = some place) ↔ back ≠ [] ∧ Viable front := by
  obtain ⟨inside, offset, same, inner⟩ := exists_inner_of_tokenize lexed
  constructor
  · rintro ⟨place, reached⟩
    have innerFront := Place.ne_end_of_after? reached
    refine ⟨?_, (viable_iff innerFront).mpr ⟨place, reached⟩⟩
    rintro rfl
    rw [List.append_nil] at same
    exact innerFront ⟨.symbol .endOfInput, offset⟩ (by simp [same]) rfl
  · rintro ⟨further, viable⟩
    have before : front <+: inside := by
      refine (List.prefix_concat_iff.mp ⟨back, same⟩).resolve_left fun whole => further ?_
      rw [← whole] at same
      exact List.append_right_eq_self.mp same
    exact (viable_iff fun token member => inner token (before.subset member)).mp viable

theorem ofText_eq_tooDeep_iff (lexed : Token.tokenize text = .ok tokens) {limit' : Int} :
    ofText limit text = .error (.parsing (.tooDeep limit')) ↔
      (ofTokens limit tokens).1 = .error (.tooDeep limit') := by
  rw [ofText_of_tokenize lexed]
  cases (ofTokens limit tokens).1 with
  | ok tree => exact iff_of_false nofun nofun
  | error error =>
    refine ⟨fun same => ?_, fun same => ?_⟩
    · cases same
      rfl
    · cases same
      rfl

section Towers

variable {carets offset : Nat}

/-- The text of a power of powers, `1^1^…^1`. -/
def towerText : Nat → List Char
  | 0 => ['1']
  | carets + 1 => '1' :: '^' :: towerText carets

def tower (offset : Nat) : Nat → List Token
  | 0 => []
  | carets + 1 => ⟨.number ⟨"1", ""⟩, some offset⟩ :: ⟨.symbol .caret, some (offset + 1)⟩ ::
      tower (offset + 2) carets

/-- The last operand and the end of the text. -/
def lastOne (offset : Nat) : List Token :=
  [⟨.number ⟨"1", ""⟩, some offset⟩, ⟨.symbol .endOfInput, some (offset + 1)⟩]

theorem lexemeAt_one {c : Char} {following : List Char} (ended : c.isDigit = false ∧ c ≠ '.') :
    Token.lexemeAt offset ('1' :: c :: following) = .ok (.number ⟨"1", ""⟩, ['1']) := by
  have run : Token.numeralRun false ('1' :: c :: following) = ['1'] := by
    simp [Token.numeralRun, ended]
  rw [lexemeAt_run (by decide) rfl, run]
  rfl

theorem scan_one {c : Char} {following : List Char} (ended : c.isDigit = false ∧ c ≠ '.') :
    Token.scan offset 0 ('1' :: c :: following) =
      Token.scan (offset + 1) 0 (c :: following) >>= fun tokens =>
        pure (⟨.number ⟨"1", ""⟩, some offset⟩ :: tokens) := by
  rw [Token.scan, lexemeAt_one ended]
  rfl

theorem scan_towerText : Token.scan offset 0 (towerText carets) =
    .ok (tower offset carets ++ lastOne (offset + 2 * carets)) := by
  induction carets generalizing offset with
  | zero => rfl
  | succ carets ih =>
    have caret : Token.scan (offset + 1) 0 ('^' :: towerText carets) =
        Token.scan (offset + 2) 0 (towerText carets) >>= fun tokens =>
          pure (⟨.symbol .caret, some (offset + 1)⟩ :: tokens) := rfl
    have distance : offset + 2 + 2 * carets = offset + 2 * (carets + 1) := by omega
    rw [towerText, scan_one (by decide), caret, ih, distance]
    rfl

theorem operators_tower : operators (tower offset carets) = List.replicate carets .pow := by
  induction carets generalizing offset with
  | zero => rfl
  | succ carets ih => exact congrArg (.pow :: ·) ih

theorem unfinished_powers :
    Operator.unfinished (List.replicate carets .pow) = List.replicate carets .pow := by
  induction carets with
  | zero => rfl
  | succ carets ih =>
    have binds : ∀ other ∈ List.replicate carets Operator.pow,
        Operator.pow.rightPower ≤ other.leftPower := fun other member => by
      rw [List.eq_of_mem_replicate member]
      decide
    rw [List.replicate_succ, Operator.unfinished, if_pos binds, ih]

theorem after?_tower :
    (Place.operandDue []).after? (tower offset carets) = some (.operandDue []) := by
  induction carets generalizing offset with
  | zero => rfl
  | succ carets ih => exact ih

theorem lexeme_of_mem_tower (member : token ∈ tower offset carets) :
    token.lexeme = .number ⟨"1", ""⟩ ∨ token.lexeme = .symbol .caret := by
  induction carets generalizing offset with
  | zero => cases member
  | succ carets ih =>
    rcases member with _ | ⟨_, _ | ⟨_, member⟩⟩
    · exact .inl rfl
    · exact .inr rfl
    · exact ih member

theorem isFlat_of_forall (plain : ∀ token ∈ tokens, token.lexeme ≠ .symbol .leftParen ∧
    token.lexeme ≠ .symbol .rightParen ∧ token.lexeme ≠ .symbol .minus) : IsFlat tokens := by
  refine ⟨fun token member => ⟨(plain token member).1, (plain token member).2.1⟩, ?_⟩
  rintro front sign back rfl isMinus
  exact absurd isMinus (plain sign (by simp)).2.2

theorem isFlat_tower {last : Nat} : IsFlat (tower offset carets ++ lastOne last) := by
  refine isFlat_of_forall fun token member => ?_
  rcases List.mem_append.mp member with inside | last
  · rcases lexeme_of_mem_tower inside with one | caret
    · simp [one]
    · simp [caret]
  · rcases last with _ | ⟨_, _ | ⟨_, ⟨⟩⟩⟩ <;> simp

/-- A power of powers nests as deeply as it has powers. -/
theorem exists_tower_tooDeep (deep : limit.toNat ≤ carets) :
    ∃ tokens, Token.tokenize (String.ofList (towerText carets)) = .ok tokens ∧ IsFlat tokens ∧
      ∃ limit', ofText limit (String.ofList (towerText carets)) =
        .error (.parsing (.tooDeep limit')) := by
  have lexed := @scan_towerText carets 0
  rw [← String.toList_ofList (l := towerText carets)] at lexed
  refine ⟨_, lexed, isFlat_tower, ?_⟩
  simp only [ofText_eq_tooDeep_iff lexed]
  refine (ofTokens_tooDeep_iff_of_flat isFlat_tower limit).mpr
    ⟨tower 0 carets, _, _, rfl, after?_tower, ?_⟩
  rw [operators_tower, unfinished_powers, List.length_replicate]
  exact Nat.lt_succ_of_le deep

/-- The text of a difference with a product with a power of powers, `1-1*1^…^1`. -/
def mixedText (carets : Nat) : List Char :=
  '1' :: '-' :: '1' :: '*' :: towerText carets

def mixedFront : List Token :=
  [⟨.number ⟨"1", ""⟩, some 0⟩, ⟨.symbol .minus, some 1⟩,
    ⟨.number ⟨"1", ""⟩, some 2⟩, ⟨.symbol .star, some 3⟩]

theorem tokenize_mixedText : Token.tokenize (String.ofList (mixedText carets)) =
    .ok (mixedFront ++ tower 4 carets ++ lastOne (4 + 2 * carets)) := by
  have minus : Token.scan 1 0 ('-' :: '1' :: '*' :: towerText carets) =
      Token.scan 2 0 ('1' :: '*' :: towerText carets) >>= fun tokens =>
        pure (⟨.symbol .minus, some 1⟩ :: tokens) := rfl
  have star : Token.scan 3 0 ('*' :: towerText carets) =
      Token.scan 4 0 (towerText carets) >>= fun tokens =>
        pure (⟨.symbol .star, some 3⟩ :: tokens) := rfl
  rw [Token.tokenize, String.toList_ofList, mixedText, scan_one (by decide), minus,
    scan_one (by decide), star, scan_towerText]
  rfl

theorem isFlat_mixed {last : Nat} : IsFlat (mixedFront ++ tower 4 carets ++ lastOne last) := by
  have flatFront : IsFlat mixedFront := by
    refine ⟨by decide, ?_⟩
    rintro (_ | ⟨one, _ | ⟨minus, front⟩⟩) sign back same isMinus expects
    · obtain ⟨rfl, -⟩ := List.cons.inj same
      cases isMinus
    · obtain ⟨rfl, -⟩ := List.cons.inj same
      cases (expects _ rfl).1
    · have further : mixedFront.drop 2 = front ++ sign :: back := congrArg (List.drop 2) same
      have noMinus : ∀ token ∈ mixedFront.drop 2, token.lexeme ≠ .symbol .minus := by decide
      exact noMinus sign (by simp [further]) isMinus
  rw [List.append_assoc]
  exact flatFront.append isFlat_tower

theorem operators_mixed :
    operators (mixedFront ++ tower 4 carets) = .sub :: .mul :: List.replicate carets .pow := by
  rw [operators_append, operators_tower]
  rfl

theorem operators_mixed_last {last : Nat} :
    operators (mixedFront ++ tower 4 carets ++ lastOne last) =
      .sub :: .mul :: List.replicate carets .pow := by
  rw [operators_append, operators_mixed]
  exact List.append_nil _

theorem unfinished_mixed : Operator.unfinished (.sub :: .mul :: List.replicate carets .pow) =
    .sub :: .mul :: List.replicate carets .pow := by
  have binds : ∀ other ∈ List.replicate carets Operator.pow,
      Operator.mul.rightPower ≤ other.leftPower := fun other member => by
    rw [List.eq_of_mem_replicate member]
    decide
  have bindsAfter : ∀ other ∈ Operator.mul :: List.replicate carets .pow,
      Operator.sub.rightPower ≤ other.leftPower :=
    List.forall_mem_cons.mpr ⟨by decide, fun other member => Nat.le_trans (by decide)
      (binds other member)⟩
  rw [Operator.unfinished, if_pos bindsAfter, Operator.unfinished, if_pos binds,
    unfinished_powers]

theorem after?_mixed :
    (Place.operandDue []).after? (mixedFront ++ tower 4 carets) = some (.operandDue []) :=
  after?_tower

end Towers

/-- A text without parentheses and signs in front of operands is refused for its depth exactly if it
begins with part of an expression that leaves the right operands of 200 operators unfinished. Where
no stretch without sums and products has more than 196 powers it is not refused for its depth. -/
theorem ofText_tooDeep_iff_of_flat (text : String) (tokens : List Token)
    (lexed : Token.tokenize text = .ok tokens) (flat : IsFlat tokens) :
    ((∃ limit, ofText defaultDepth text = .error (.parsing (.tooDeep limit))) ↔
      ∃ front next back, tokens = front ++ next :: back ∧ Viable front ∧
        defaultDepth < (Operator.unfinished (operators front)).length + 1) ∧
    ((∀ front stretch back, tokens = front ++ stretch ++ back →
        (∀ operator ∈ operators stretch,
          operator.category ≠ .sum ∧ operator.category ≠ .product) →
        (operators stretch).count .pow ≤ 196) →
      ∀ limit, ofText defaultDepth text ≠ .error (.parsing (.tooDeep limit))) := by
  have tooDeep : (∃ limit, ofText defaultDepth text = .error (.parsing (.tooDeep limit))) ↔ _ :=
    (exists_congr fun _ => ofText_eq_tooDeep_iff lexed).trans
      (ofTokens_tooDeep_iff_of_flat flat defaultDepth)
  have levels : defaultDepth.toNat = 200 := rfl
  refine ⟨tooDeep.trans ⟨?_, ?_⟩, fun few limit failed => ?_⟩
  · rintro ⟨front, back, place, rfl, reached, high⟩
    obtain ⟨further, viable⟩ := (exists_place_iff lexed).mp ⟨place, reached⟩
    obtain ⟨next, back, rfl⟩ := List.exists_cons_of_ne_nil further
    exact ⟨front, next, back, rfl, viable, by unfold defaultDepth; omega⟩
  · rintro ⟨front, next, back, rfl, viable, high⟩
    obtain ⟨place, reached⟩ := (exists_place_iff lexed).mpr ⟨List.cons_ne_nil next back, viable⟩
    exact ⟨front, next :: back, place, rfl, reached, by unfold defaultDepth at high; omega⟩
  · obtain ⟨front, back, place, same, -, high⟩ := tooDeep.mp ⟨limit, failed⟩
    have atMost := length_unfinished_of_stretches few same
    omega

/-- Behind a difference and a product the limit admits 197 powers of powers; with 196 it need not be
asked which operators are unfinished. -/
theorem ofText_mixed_threshold :
    (∃ tokens, Token.tokenize (String.ofList (mixedText 198)) = .ok tokens ∧ IsFlat tokens ∧
      ∃ limit, ofText defaultDepth (String.ofList (mixedText 198)) =
        .error (.parsing (.tooDeep limit))) ∧
    (∃ tokens, Token.tokenize (String.ofList (mixedText 197)) = .ok tokens ∧ IsFlat tokens ∧
      ¬ ∃ limit, ofText defaultDepth (String.ofList (mixedText 197)) =
        .error (.parsing (.tooDeep limit))) ∧
    ∃ tokens, Token.tokenize (String.ofList (mixedText 196)) = .ok tokens ∧ IsFlat tokens ∧
      ∀ limit, ofText defaultDepth (String.ofList (mixedText 196)) ≠
        .error (.parsing (.tooDeep limit)) := by
  refine ⟨⟨_, tokenize_mixedText, isFlat_mixed, ?_⟩, ⟨_, tokenize_mixedText, isFlat_mixed, ?_⟩,
    ⟨_, tokenize_mixedText, isFlat_mixed, ?_⟩⟩
  · refine (ofText_tooDeep_iff_of_flat _ _ tokenize_mixedText isFlat_mixed).1.mpr
      ⟨mixedFront ++ tower 4 198, _, _, rfl, ?_, ?_⟩
    · exact ((exists_place_iff tokenize_mixedText).mp ⟨_, after?_mixed⟩).2
    · rw [operators_mixed, unfinished_mixed, List.length_cons, List.length_cons,
        List.length_replicate]
      decide
  · rw [(ofText_tooDeep_iff_of_flat _ _ tokenize_mixedText isFlat_mixed).1]
    rintro ⟨front, next, back, same, -, high⟩
    -- No part leaves more operators unfinished than the whole has.
    have size := congrArg (List.length ∘ operators) same
    rw [Function.comp_apply, Function.comp_apply, operators_mixed_last, operators_append,
      List.length_append, List.length_cons, List.length_cons, List.length_replicate] at size
    have atMost := (@Operator.unfinished_sublist (operators front)).length_le
    unfold defaultDepth at high
    omega
  · refine (ofText_tooDeep_iff_of_flat _ _ tokenize_mixedText isFlat_mixed).2 ?_
    intro front stretch back same _
    -- No stretch has more powers than the whole has.
    have count := congrArg (List.count .pow ∘ operators) same
    rw [Function.comp_apply, Function.comp_apply, operators_mixed_last, operators_append,
      operators_append, List.count_append, List.count_append,
      List.count_cons_of_ne (show Operator.sub ≠ .pow by decide),
      List.count_cons_of_ne (show Operator.mul ≠ .pow by decide),
      List.count_replicate_self] at count
    omega

/-- Two hundred powers of powers are refused for their depth, although they have no parentheses and
no signs. -/
theorem ofText_tower_tooDeep :
    ∃ tokens, Token.tokenize (String.ofList (towerText 200)) = .ok tokens ∧ IsFlat tokens ∧
      ∃ limit, ofText defaultDepth (String.ofList (towerText 200)) =
        .error (.parsing (.tooDeep limit)) :=
  exists_tower_tooDeep (by decide)

end Expr

end Uncertainty

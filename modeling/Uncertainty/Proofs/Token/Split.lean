import Uncertainty.Token.Lexer

/-!
The split of a text into blanks and lexemes, by rules that say what stands at the front of a text and
not how to find it. The lexer takes exactly the lexemes of the split, and it fails exactly where
no rule applies; every character that no lexeme covers is a blank.
-/
namespace Uncertainty

open Token (isBlank symbolOf? numeralRun lexemeAt scan tokenize)

def IsStretch (run : List Char) : Prop :=
  (∀ c ∈ run, c.isDigit ∨ c = '.') ∧ run.count '.' ≤ 1

/-- The longest stretch of digits with at most one point, `following` being what stands behind. -/
def IsRun (run following : List Char) : Prop :=
  IsStretch run ∧ ∀ c ∈ following.head?, ¬ IsStretch (run ++ [c])

/-- The literal that a numeral writes: the digits on both sides of its point, if it has one. -/
inductive Writes : List Char → Literal → Prop where
  | whole {digits : List Char} (noPoint : '.' ∉ digits) : Writes digits ⟨String.ofList digits, ""⟩
  | pointed {before after : List Char} (noPoint : '.' ∉ before) :
      Writes (before ++ '.' :: after)
        ⟨if before = [] then "0" else String.ofList before, String.ofList after⟩

/-- The lexeme that `spelling` is at the front of a text which goes on with `following`. -/
inductive Munch : List Char → Lexeme → List Char → Prop where
  | digraph {following : List Char} : Munch ['+', '-'] (.symbol .plusMinus) following
  | symbol {symbol : Symbol} {c : Char} {following : List Char} (spelled : symbol.text.toList = [c])
      (noDigraph : symbol = .plus → following.head? ≠ some '-') :
      Munch [c] (.symbol symbol) following
  | numeral {run following : List Char} {literal : Literal} (isRun : IsRun run following)
      (nonempty : run ≠ []) (closed : run.getLast? ≠ some '.') (writes : Writes run literal) :
      Munch run (.number literal) following

/-- A lexeme with the characters that spell it and the offset of the first of them. -/
structure Piece where
  offset : Nat
  spelling : List Char
  lexeme : Lexeme

namespace Piece

def token (piece : Piece) : Token :=
  ⟨piece.lexeme, some piece.offset⟩

def stop (piece : Piece) : Nat :=
  piece.offset + piece.spelling.length

end Piece

/-- `Split offset text pieces rest`: the split of `text`, which begins at `offset`, takes off
`pieces` and the blanks between them and comes to `rest`. -/
inductive Split : Nat → List Char → List Piece → List Char → Prop where
  | done {offset : Nat} {text : List Char} : Split offset text [] text
  | blank {offset : Nat} {c : Char} {text rest : List Char} {pieces : List Piece}
      (isBlank : isBlank c) (further : Split (offset + 1) text pieces rest) :
      Split offset (c :: text) pieces rest
  | lexeme {offset : Nat} {spelling following rest : List Char} {lexeme : Lexeme}
      {pieces : List Piece} (munch : Munch spelling lexeme following)
      (further : Split (offset + spelling.length) following pieces rest) :
      Split offset (spelling ++ following) (⟨offset, spelling, lexeme⟩ :: pieces) rest

/-- How pieces lie in a text that begins at `offset`, up to `stop`. -/
structure Layout (offset stop : Nat) (text : List Char) (pieces : List Piece) : Prop where
  inner : ∀ piece ∈ pieces, piece.lexeme ≠ .symbol .endOfInput
  inPlace : ∀ piece ∈ pieces, offset ≤ piece.offset ∧
    piece.spelling <+: text.drop (piece.offset - offset)
  increasing : (pieces.map Piece.offset ++ [stop]).Pairwise (· < ·)
  covered : ∀ i c, offset + i < stop → text[i]? = some c →
    isBlank c ∨ ∃ piece ∈ pieces, piece.offset ≤ offset + i ∧ offset + i < piece.stop

/-- No rule applies at the front of a text: it begins with a character that is in no lexeme, or with
a run that ends in its point. -/
inductive Stuck (offset : Nat) : List Char → LexicalError → Prop where
  | character {c : Char} {rest : List Char} (noBlank : isBlank c = false)
      (noSymbol : ∀ symbol : Symbol, symbol.text.toList ≠ [c]) (noDigit : c.isDigit = false)
      (noPoint : c ≠ '.') : Stuck offset (c :: rest) (.unexpectedCharacter c offset)
  | point {run following : List Char} (isRun : IsRun run following)
      (ends : run.getLast? = some '.') :
      Stuck offset (run ++ following) (.endsInPoint (String.ofList run) offset)

section Characters

variable {c : Char} {symbol : Symbol}

theorem symbolOf?_eq_some_iff :
    symbolOf? c = some symbol ↔ symbol.text.toList = [c] ∧ symbol ≠ .plus := by
  constructor
  · intro found
    unfold symbolOf? at found
    split at found <;> cases found <;> decide
  · rintro ⟨spelled, noPlus⟩
    cases symbol <;> cases spelled <;> first | rfl | contradiction

theorem not_blank_of_symbol (spelled : symbol.text.toList = [c]) : isBlank c = false := by
  cases symbol <;> cases spelled <;> rfl

theorem not_digit_of_symbol (spelled : symbol.text.toList = [c]) :
    c.isDigit = false ∧ c ≠ '.' := by
  cases symbol <;> cases spelled <;> decide

theorem not_blank_of_digit (digit : c.isDigit ∨ c = '.') : isBlank c = false := by
  rcases digit with digit | rfl
  · simp only [isBlank, Bool.or_eq_false_iff, decide_eq_false_iff_not]
    refine ⟨⟨?_, ?_⟩, ?_⟩ <;> rintro rfl <;> cases digit
  · rfl

theorem symbolOf?_of_digit (digit : c.isDigit ∨ c = '.') : symbolOf? c = none := by
  cases found : symbolOf? c with
  | none => rfl
  | some symbol =>
    obtain ⟨noDigit, noPoint⟩ := not_digit_of_symbol (symbolOf?_eq_some_iff.mp found).1
    rcases digit with digit | point
    · rw [noDigit] at digit
      cases digit
    · exact absurd point noPoint

end Characters

section Runs

variable {c : Char} {run run' following following' : List Char}

theorem isStretch_snoc (stretch : IsStretch run) :
    IsStretch (run ++ [c]) ↔ c.isDigit ∨ (c = '.' ∧ '.' ∉ run) := by
  constructor
  · rintro ⟨inside, onePoint⟩
    rcases inside c (by simp) with digit | rfl
    · exact .inl digit
    · refine .inr ⟨rfl, fun member => ?_⟩
      have := List.count_pos_iff.mpr member
      simp only [List.count_append, List.count_singleton_self] at onePoint
      omega
  · intro longer
    refine ⟨fun d member => ?_, ?_⟩
    · rcases List.mem_append.mp member with inRun | last
      · exact stretch.1 d inRun
      · obtain rfl := List.mem_singleton.mp last
        exact longer.imp id And.left
    · rcases longer with digit | ⟨rfl, noPoint⟩
      · have noPoint : c ≠ '.' := by rintro rfl; cases digit
        simpa [noPoint] using stretch.2
      · simp [List.count_eq_zero.mpr noPoint]

theorem IsStretch.of_append (stretch : IsStretch (run ++ following)) : IsStretch run := by
  refine ⟨fun c member => stretch.1 c (List.mem_append_left _ member), ?_⟩
  have := stretch.2
  rw [List.count_append] at this
  omega

theorem IsRun.eq_nil_of_longer (isRun : IsRun run (run' ++ following))
    (stretch : IsStretch (run ++ run')) : run' = [] := by
  cases run' with
  | nil => rfl
  | cons c run' =>
    rw [List.append_cons] at stretch
    exact absurd stretch.of_append (isRun.2 c rfl)

theorem IsRun.unique (first : IsRun run following) (second : IsRun run' following')
    (same : run ++ following = run' ++ following') : run = run' := by
  rcases List.append_eq_append_iff.mp same with ⟨more, rfl, rfl⟩ | ⟨more, rfl, rfl⟩
  · rw [first.eq_nil_of_longer second.1, List.append_nil]
  · rw [second.eq_nil_of_longer first.1, List.append_nil]

/-- The lexer goes on with a stretch as long as it stays one. -/
theorem numeralRun_cons :
    numeralRun (decide ('.' ∈ run)) (c :: following) =
      if c.isDigit ∨ (c = '.' ∧ '.' ∉ run)
      then c :: numeralRun (decide ('.' ∈ run ++ [c])) following else [] := by
  cases digit : c.isDigit with
  | true =>
    have noPoint : '.' ≠ c := by rintro rfl; cases digit
    simp [numeralRun, digit, noPoint]
  | false =>
    by_cases isPoint : c = '.' <;> by_cases passed : '.' ∈ run <;>
      simp [numeralRun, digit, isPoint, passed]

theorem exists_run (front text : List Char) (stretch : IsStretch front) :
    ∃ following, text = numeralRun (decide ('.' ∈ front)) text ++ following ∧
      IsRun (front ++ numeralRun (decide ('.' ∈ front)) text) following := by
  induction text generalizing front with
  | nil => exact ⟨[], rfl, by simpa [numeralRun, IsRun] using stretch⟩
  | cons c text ih =>
    rw [numeralRun_cons]
    by_cases longer : c.isDigit ∨ (c = '.' ∧ '.' ∉ front)
    · obtain ⟨following, same, isRun⟩ := ih (front ++ [c]) ((isStretch_snoc stretch).mpr longer)
      rw [if_pos longer]
      refine ⟨following, by rw [List.cons_append, ← same], ?_⟩
      rwa [List.append_cons]
    · rw [if_neg longer]
      refine ⟨c :: text, rfl, by rwa [List.append_nil], ?_⟩
      rintro d ⟨⟩
      rwa [List.append_nil, isStretch_snoc stretch]

theorem numeralRun_isRun (text : List Char) :
    ∃ following, text = numeralRun false text ++ following ∧ IsRun (numeralRun false text) following :=
  exists_run [] text ⟨by simp, by simp⟩

theorem IsRun.numeralRun_eq (isRun : IsRun run following) :
    numeralRun false (run ++ following) = run := by
  obtain ⟨following', same, isRun'⟩ := numeralRun_isRun (run ++ following)
  exact isRun'.unique isRun same.symm

end Runs

section Literals

variable {run : List Char} {literal : Literal}

theorem Writes.ofText_eq (writes : Writes run literal) :
    Literal.ofText (String.ofList run) = literal := by
  cases writes with
  | whole noPoint =>
    have inside : ∀ c ∈ run, decide (c ≠ '.') = true := by
      intro c member
      simpa using fun point : c = '.' => noPoint (point ▸ member)
    have rest : run.dropWhile (· ≠ '.') = [] := by
      simpa using @List.dropWhile_append_of_pos _ _ _ [] inside
    simp only [Literal.ofText, String.toList_ofList, rest]
  | @pointed before after noPoint =>
    have inside : ∀ c ∈ before, decide (c ≠ '.') = true := by
      intro c member
      simpa using fun point : c = '.' => noPoint (point ▸ member)
    have rest : (before ++ '.' :: after).dropWhile (· ≠ '.') = '.' :: after := by
      rw [List.dropWhile_append_of_pos inside]
      simp
    have front : (before ++ '.' :: after).takeWhile (· ≠ '.') = before := by
      rw [List.takeWhile_append_of_pos inside]
      simp
    simp only [Literal.ofText, String.toList_ofList, rest, front, List.isEmpty_iff]

theorem writes_ofText (run : List Char) : Writes run (Literal.ofText (String.ofList run)) := by
  by_cases point : '.' ∈ run
  · obtain ⟨before, after, rfl, noPoint⟩ := List.eq_append_cons_of_mem point
    have writes : Writes (before ++ '.' :: after) _ := .pointed noPoint
    rwa [writes.ofText_eq]
  · have writes := Writes.whole point
    rwa [writes.ofText_eq]

end Literals

section Lexemes

variable {c : Char} {offset : Nat} {text spelling following front rest : List Char}
variable {lexeme : Lexeme} {error : LexicalError} {symbol : Symbol}

theorem lexemeAt_plus (noDigraph : following.head? ≠ some '-') :
    lexemeAt offset ('+' :: following) = .ok (.symbol .plus, ['+']) := by
  cases following with
  | nil => rfl
  | cons d following =>
    have noMinus : d ≠ '-' := fun same => noDigraph (congrArg some same)
    simp [lexemeAt, noMinus]

theorem lexemeAt_symbol (found : symbolOf? c = some symbol) :
    lexemeAt offset (c :: following) = .ok (.symbol symbol, [c]) := by
  have noPlus : c ≠ '+' := by rintro rfl; cases found
  simp [lexemeAt, found, noPlus]

theorem lexemeAt_run (noPlus : c ≠ '+') (noSymbol : symbolOf? c = none) :
    lexemeAt offset (c :: following) =
      let run := numeralRun false (c :: following)
      if run.isEmpty then .error (.unexpectedCharacter c offset)
      else if run.getLast? = some '.' then .error (.endsInPoint (String.ofList run) offset)
      else .ok (.number (Literal.ofText (String.ofList run)), run) := by
  simp [lexemeAt, noSymbol, noPlus]

theorem IsRun.head_digit {run : List Char} (isRun : IsRun (c :: run) following) :
    c.isDigit ∨ c = '.' :=
  isRun.1.1 c List.mem_cons_self

theorem not_plus_of_digit (digit : c.isDigit ∨ c = '.') : c ≠ '+' := by
  rintro rfl
  rcases digit with digit | point <;> contradiction

theorem Munch.ne_nil (munch : Munch spelling lexeme following) : spelling ≠ [] := by
  cases munch with
  | digraph | symbol => exact List.cons_ne_nil _ _
  | numeral _ nonempty => exact nonempty

theorem Munch.not_blank (munch : Munch (c :: spelling) lexeme following) : isBlank c = false := by
  cases munch with
  | digraph => rfl
  | symbol spelled => exact not_blank_of_symbol spelled
  | numeral isRun => exact not_blank_of_digit isRun.head_digit

theorem Munch.lexemeAt_eq (munch : Munch spelling lexeme following) :
    lexemeAt offset (spelling ++ following) = .ok (lexeme, spelling) := by
  cases munch with
  | digraph => rfl
  | @symbol symbol c _ spelled noDigraph =>
    by_cases plus : symbol = .plus
    · subst plus
      cases spelled
      exact lexemeAt_plus (noDigraph rfl)
    · exact lexemeAt_symbol (symbolOf?_eq_some_iff.mpr ⟨spelled, plus⟩)
  | numeral isRun nonempty closed writes =>
    cases spelling with
    | nil => contradiction
    | cons c run =>
      have same := isRun.numeralRun_eq
      have digit := isRun.head_digit
      rw [List.cons_append] at same ⊢
      rw [lexemeAt_run (not_plus_of_digit digit) (symbolOf?_of_digit digit), same]
      simp only [List.isEmpty_cons, closed, Bool.false_eq_true, ↓reduceIte, writes.ofText_eq]

theorem Stuck.lexemeAt_eq (stuck : Stuck offset text error) :
    lexemeAt offset text = .error error := by
  cases stuck with
  | @character c rest noBlank noSymbol noDigit noPoint =>
    have noPlus : c ≠ '+' := by rintro rfl; exact noSymbol .plus rfl
    have unspelled : symbolOf? c = none := by
      cases found : symbolOf? c with
      | none => rfl
      | some symbol => exact absurd (symbolOf?_eq_some_iff.mp found).1 (noSymbol symbol)
    rw [lexemeAt_run noPlus unspelled]
    simp [numeralRun, noDigit, noPoint]
  | @point run following isRun ends =>
    cases run with
    | nil => cases ends
    | cons c run =>
      have same := isRun.numeralRun_eq
      have digit := isRun.head_digit
      rw [List.cons_append] at same ⊢
      rw [lexemeAt_run (not_plus_of_digit digit) (symbolOf?_of_digit digit), same]
      simp [ends]

/-- Where a text does not begin with a blank, it begins with a lexeme or the split is stuck. -/
theorem munch_or_stuck (offset : Nat) (rest : List Char) (noBlank : isBlank c = false) :
    (∃ spelling lexeme following, c :: rest = spelling ++ following ∧
      Munch spelling lexeme following) ∨ ∃ error, Stuck offset (c :: rest) error := by
  by_cases spelled : ∃ symbol : Symbol, symbol.text.toList = [c]
  · obtain ⟨symbol, spelled⟩ := spelled
    by_cases digraph : c = '+' ∧ rest.head? = some '-'
    · obtain ⟨rfl, minus⟩ := digraph
      obtain ⟨following, rfl⟩ : ∃ following, rest = '-' :: following := by
        cases rest with
        | nil => cases minus
        | cons d following => exact ⟨following, by rw [Option.some.inj minus]⟩
      exact .inl ⟨['+', '-'], _, following, rfl, .digraph⟩
    · refine .inl ⟨[c], _, rest, rfl, .symbol spelled ?_⟩
      rintro rfl minus
      cases spelled
      exact digraph ⟨rfl, minus⟩
  · obtain ⟨following, same, isRun⟩ := numeralRun_isRun (c :: rest)
    by_cases digit : c.isDigit ∨ c = '.'
    · have nonempty : numeralRun false (c :: rest) ≠ [] := by
        rcases digit with digit | rfl <;> simp [numeralRun, *]
      by_cases ends : (numeralRun false (c :: rest)).getLast? = some '.'
      · have stuck : Stuck offset (numeralRun false (c :: rest) ++ following) _ := .point isRun ends
        rw [← same] at stuck
        exact .inr ⟨_, stuck⟩
      · exact .inl ⟨_, _, following, same, .numeral isRun nonempty ends (writes_ofText _)⟩
    · rw [not_or] at digit
      exact .inr ⟨_, .character noBlank (fun symbol same => spelled ⟨symbol, same⟩)
        (Bool.eq_false_iff.mpr digit.1) digit.2⟩

/-- A lexeme stays the one at the front when the text is cut off behind it. -/
theorem Munch.of_append (munch : Munch spelling lexeme (front ++ rest)) :
    Munch spelling lexeme front := by
  have head : ∀ d ∈ front.head?, d ∈ (front ++ rest).head? := by
    cases front <;> simp
  cases munch with
  | digraph => exact .digraph
  | symbol spelled noDigraph => exact .symbol spelled fun plus minus => noDigraph plus (head _ minus)
  | numeral isRun nonempty closed writes =>
    exact .numeral ⟨isRun.1, fun d member => isRun.2 d (head d member)⟩ nonempty closed writes

end Lexemes

section Scan

variable {offset stop : Nat} {text spelling following front rest : List Char} {lexeme : Lexeme}
variable {pieces : List Piece} {error : LexicalError}

theorem scan_skip : scan offset front.length (front ++ rest) = scan (offset + front.length) 0 rest := by
  induction front generalizing offset with
  | nil => rfl
  | cons c front ih =>
    rw [List.length_cons, List.cons_append, scan, ih]
    congr 1
    omega

theorem scan_munch (munch : Munch spelling lexeme following) :
    scan offset 0 (spelling ++ following) =
      (scan (offset + spelling.length) 0 following).map (⟨lexeme, some offset⟩ :: ·) := by
  cases spelling with
  | nil => exact absurd rfl munch.ne_nil
  | cons c spelling =>
    have found : lexemeAt offset (c :: (spelling ++ following)) = .ok (lexeme, c :: spelling) :=
      munch.lexemeAt_eq
    have skipped := @scan_skip (offset + 1) spelling following
    rw [Nat.add_right_comm, Nat.add_assoc offset] at skipped
    simp only [List.cons_append, scan, munch.not_blank, Bool.false_eq_true, ↓reduceIte, found]
    simp only [bind, Except.bind, List.length_cons, Nat.add_sub_cancel, skipped]
    cases scan (offset + (spelling.length + 1)) 0 following <;> rfl

theorem scan_stuck (stuck : Stuck offset text error) : scan offset 0 text = .error error := by
  have found := stuck.lexemeAt_eq
  cases stuck with
  | character noBlank =>
    simp only [scan, noBlank, Bool.false_eq_true, ↓reduceIte, found]
    rfl
  | @point run following isRun ends =>
    cases run with
    | nil => cases ends
    | cons c run =>
      have noBlank := not_blank_of_digit isRun.head_digit
      rw [List.cons_append] at found ⊢
      simp only [scan, noBlank, Bool.false_eq_true, ↓reduceIte, found]
      rfl

theorem Stuck.offset_eq (stuck : Stuck offset text error) : error.offset = offset := by
  cases stuck <;> rfl

theorem Split.scan_eq (split : Split offset text pieces rest)
    (reaches : stop + rest.length = offset + text.length) :
    scan offset 0 text = (scan stop 0 rest).map (pieces.map Piece.token ++ ·) := by
  induction split with
  | @done offset text =>
    obtain rfl : stop = offset := by omega
    cases scan stop 0 text <;> rfl
  | blank isBlank further ih =>
    rw [List.length_cons] at reaches
    rw [scan, if_pos isBlank]
    exact ih (by omega)
  | @lexeme offset spelling following rest lexeme pieces munch further ih =>
    rw [List.length_append] at reaches
    rw [scan_munch munch, ih (by omega)]
    cases scan stop 0 rest <;> rfl

theorem exists_split (offset : Nat) (text : List Char) : ∃ pieces rest stop,
    Split offset text pieces rest ∧ stop + rest.length = offset + text.length ∧
      (rest = [] ∨ ∃ error, Stuck stop rest error) := by
  match text with
  | [] => exact ⟨[], [], offset, .done, rfl, .inl rfl⟩
  | c :: text =>
    cases blank : isBlank c with
    | true =>
      obtain ⟨pieces, rest, stop, split, reaches, ending⟩ := exists_split (offset + 1) text
      exact ⟨pieces, rest, stop, .blank blank split, by rw [List.length_cons]; omega, ending⟩
    | false =>
      rcases munch_or_stuck offset text blank with
        ⟨spelling, lexeme, following, same, munch⟩ | ⟨error, stuck⟩
      · have shorter : following.length < (c :: text).length := by
          have := List.length_pos_iff.mpr munch.ne_nil
          rw [same, List.length_append]
          omega
        obtain ⟨pieces, rest, stop, split, reaches, ending⟩ :=
          exists_split (offset + spelling.length) following
        rw [same]
        exact ⟨_, rest, stop, .lexeme munch split, by rw [List.length_append]; omega, ending⟩
      · exact ⟨[], c :: text, offset, .done, rfl, .inr ⟨error, stuck⟩⟩
termination_by text.length
decreasing_by
  · exact shorter
  · exact Nat.lt_succ_self _

theorem Split.exists_front (split : Split offset text pieces rest) :
    ∃ front, text = front ++ rest ∧ Split offset front pieces [] := by
  induction split with
  | done => exact ⟨[], rfl, .done⟩
  | @blank offset c text rest pieces isBlank further ih =>
    obtain ⟨front, rfl, split⟩ := ih
    exact ⟨c :: front, rfl, .blank isBlank split⟩
  | @lexeme offset spelling following rest lexeme pieces munch further ih =>
    obtain ⟨front, rfl, split⟩ := ih
    exact ⟨spelling ++ front, (List.append_assoc ..).symm, .lexeme munch.of_append split⟩

theorem Munch.ne_endOfInput (munch : Munch spelling lexeme following) :
    lexeme ≠ .symbol .endOfInput := by
  cases munch with
  | symbol spelled => rintro ⟨⟩; cases spelled
  | _ => rintro ⟨⟩

theorem Split.length_le (split : Split offset text pieces rest) : rest.length ≤ text.length := by
  obtain ⟨front, rfl, -⟩ := split.exists_front
  rw [List.length_append]
  omega

theorem layout_done : Layout offset offset text [] := by
  refine ⟨by simp, by simp, by simp, fun i c inside => ?_⟩
  omega

theorem Layout.cons_blank {c : Char} (layout : Layout (offset + 1) stop text pieces)
    (isBlank : isBlank c) : Layout offset stop (c :: text) pieces := by
  obtain ⟨inner, inPlace, increasing, covered⟩ := layout
  refine ⟨inner, fun piece member => ?_, increasing, fun i d inside found => ?_⟩
  · obtain ⟨after, place⟩ := inPlace piece member
    have shift : piece.offset - offset = piece.offset - (offset + 1) + 1 := by omega
    refine ⟨by omega, ?_⟩
    rwa [shift, List.drop_succ_cons]
  · cases i with
    | zero =>
      obtain rfl := Option.some.inj found
      exact .inl isBlank
    | succ i =>
      have := covered i d (by omega) found
      rwa [Nat.add_right_comm, Nat.add_assoc] at this

theorem Layout.cons_lexeme (layout : Layout (offset + spelling.length) stop following pieces)
    (munch : Munch spelling lexeme following) (within : offset + spelling.length ≤ stop) :
    Layout offset stop (spelling ++ following) (⟨offset, spelling, lexeme⟩ :: pieces) := by
  obtain ⟨inner, inPlace, increasing, covered⟩ := layout
  have positive := List.length_pos_iff.mpr munch.ne_nil
  refine ⟨?_, ?_, ?_, fun i d inside found => ?_⟩
  · rintro piece (_ | ⟨_, member⟩)
    · exact munch.ne_endOfInput
    · exact inner piece member
  · rintro piece (_ | ⟨_, member⟩)
    · exact ⟨Nat.le_refl _, by simp⟩
    · obtain ⟨after, place⟩ := inPlace piece member
      refine ⟨by omega, ?_⟩
      rwa [List.drop_append, List.drop_eq_nil_of_le (by omega), List.nil_append, Nat.sub_sub]
  · rw [List.map_cons, List.cons_append, List.pairwise_cons]
    refine ⟨fun position member => ?_, increasing⟩
    rcases List.mem_append.mp member with inPieces | last
    · obtain ⟨piece, isPiece, rfl⟩ := List.mem_map.mp inPieces
      have := (inPlace piece isPiece).1
      dsimp only
      omega
    · obtain rfl := List.mem_singleton.mp last
      dsimp only
      omega
  · by_cases inSpelling : i < spelling.length
    · refine .inr ⟨_, List.mem_cons_self, ?_, ?_⟩
      · exact Nat.le_add_right _ _
      · simp only [Piece.stop]
        omega
    · rw [List.getElem?_append_right (by omega)] at found
      have shift : offset + spelling.length + (i - spelling.length) = offset + i := by omega
      have := covered (i - spelling.length) d (by omega) found
      rw [shift] at this
      exact this.imp id fun ⟨piece, member, place⟩ => ⟨piece, .tail _ member, place⟩

theorem Split.layout (split : Split offset text pieces rest)
    (reaches : stop + rest.length = offset + text.length) : Layout offset stop text pieces := by
  induction split with
  | @done offset text =>
    obtain rfl : stop = offset := by omega
    exact layout_done
  | blank isBlank further ih =>
    rw [List.length_cons] at reaches
    exact (ih (by omega)).cons_blank isBlank
  | lexeme munch further ih =>
    have reached := further.length_le
    rw [List.length_append] at reaches
    exact (ih (by omega)).cons_lexeme munch (by omega)

theorem Split.tokenize_eq {text : String} (split : Split 0 text.toList pieces []) :
    tokenize text = .ok (pieces.map Piece.token ++ [⟨.symbol .endOfInput, some text.length⟩]) := by
  have reaches : text.length + ([] : List Char).length = 0 + text.toList.length := by
    rw [String.length_toList, List.length_nil, Nat.zero_add, Nat.add_zero]
  rw [tokenize, split.scan_eq reaches]
  rfl

theorem Stuck.tokenize_eq {text : String} (stuck : Stuck stop rest error)
    (split : Split 0 text.toList pieces rest) (reaches : stop + rest.length = text.length) :
    tokenize text = .error error := by
  rw [← String.length_toList, ← Nat.zero_add text.toList.length] at reaches
  rw [tokenize, split.scan_eq reaches, scan_stuck stuck]
  rfl

/-- So far as a split has come, it is the split of the text up to there. -/
theorem Split.tokenize_take {text : String} (split : Split 0 text.toList pieces rest)
    (reaches : stop + rest.length = text.length) :
    tokenize (String.ofList (text.toList.take stop)) =
      .ok (pieces.map Piece.token ++ [⟨.symbol .endOfInput, some stop⟩]) := by
  obtain ⟨front, same, splitFront⟩ := split.exists_front
  have size : front.length = stop := by
    rw [← String.length_toList, same, List.length_append] at reaches
    omega
  have splitTaken : Split 0 (String.ofList front).toList pieces [] := by
    rwa [String.toList_ofList]
  have taken := splitTaken.tokenize_eq
  rw [String.length_ofList, size] at taken
  rw [same, ← size, List.take_left, size]
  exact taken

end Scan

namespace Token

/-- Tokens are the lexemes of the split, which lie in the text without overlapping and leave out
nothing but blanks; the lexer fails where the split is stuck, and nowhere before. -/
theorem tokenize_iff_split (text : String) :
    (∀ tokens, tokenize text = .ok tokens ↔ ∃ pieces, Split 0 text.toList pieces [] ∧
      tokens = pieces.map Piece.token ++ [⟨.symbol .endOfInput, some text.length⟩]) ∧
    (∀ error, tokenize text = .error error ↔ ∃ pieces rest, Split 0 text.toList pieces rest ∧
      error.offset + rest.length = text.length ∧ Stuck error.offset rest error) ∧
    ∀ pieces rest stop, Split 0 text.toList pieces rest → stop + rest.length = text.length →
      Layout 0 stop text.toList pieces ∧
      tokenize (String.ofList (text.toList.take stop)) =
        .ok (pieces.map Piece.token ++ [⟨.symbol .endOfInput, some stop⟩]) := by
  obtain ⟨pieces, rest, stop, split, reaches, ending⟩ := exists_split 0 text.toList
  rw [Nat.zero_add, String.length_toList] at reaches
  refine ⟨fun tokens => ⟨fun done => ?_, ?_⟩, fun error => ⟨fun failed => ?_, ?_⟩, ?_⟩
  · rcases ending with rfl | ⟨error, stuck⟩
    · rw [split.tokenize_eq] at done
      exact ⟨pieces, split, (Except.ok.inj done).symm⟩
    · rw [stuck.tokenize_eq split reaches] at done
      cases done
  · rintro ⟨pieces, split, rfl⟩
    exact split.tokenize_eq
  · rcases ending with rfl | ⟨error', stuck⟩
    · rw [split.tokenize_eq] at failed
      cases failed
    · rw [stuck.tokenize_eq split reaches] at failed
      cases failed
      obtain rfl := stuck.offset_eq
      exact ⟨pieces, rest, split, reaches, stuck⟩
  · rintro ⟨pieces, rest, split, reaches, stuck⟩
    exact stuck.tokenize_eq split reaches
  · intro pieces rest stop split reaches
    refine ⟨split.layout ?_, split.tokenize_take reaches⟩
    rw [String.length_toList, Nat.zero_add]
    exact reaches

end Token

end Uncertainty

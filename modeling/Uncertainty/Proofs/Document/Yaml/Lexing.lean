import Uncertainty.Document.Yaml.Token.Lexer
import Uncertainty.Proofs.Document.Yaml.Scalar

/-!
The tokens of lines in block style. A field has its name up to a colon and its value on the same
line or from the next one on; a dash stands in front of an item. Where a line starts decides what
ends in front of it.
-/
namespace Uncertainty.Yaml

namespace Lexer

variable {lexer state after : Lexer} {found : List Mark} {tokens : List Token}
variable {c : Char} {rest content characters : List Char} {columns : List Nat}
variable {index line column width fuel : Nat} {mayStartName : Bool}

/-- A state in block style in which no name has been started. -/
abbrev block (rest : List Char) (index line column : Nat) (columns : List Nat)
    (mayStartName : Bool) : Lexer :=
  { rest, index, line, column, columns, mayStartName }

section Passing

theorem passAll_append (characters others : List Char) (lexer : Lexer) :
    lexer.passAll (characters ++ others) = (lexer.passAll characters).passAll others :=
  List.foldl_append

/-- A character that takes up one column. -/
def isNarrow (c : Char) : Bool :=
  !isBreak c && c ≠ '\ufeff'

theorem pass_narrow (narrow : isNarrow c = true) (lexer : Lexer) :
    lexer.pass c = { lexer with
      rest := lexer.rest.drop 1, index := lexer.index + 1, column := lexer.column + 1 } := by
  simp only [isNarrow, Bool.and_eq_true, Bool.not_eq_true', decide_eq_true_eq, ne_eq] at narrow
  rw [pass, if_neg (by simp [narrow.1]), if_neg narrow.2]

theorem passAll_narrow (narrow : ∀ c ∈ characters, isNarrow c = true) (lexer : Lexer) :
    lexer.passAll characters = { lexer with
      rest := lexer.rest.drop characters.length, index := lexer.index + characters.length,
      column := lexer.column + characters.length } := by
  induction characters generalizing lexer with
  | nil => rfl
  | cons c characters ih =>
    have behind := ih (fun d member => narrow d (List.mem_cons_of_mem _ member)) (lexer.pass c)
    rw [passAll, List.foldl_cons, ← passAll, behind,
      pass_narrow (narrow c List.mem_cons_self) lexer]
    simp [Nat.add_assoc, Nat.add_comm 1]

theorem exists_passAll (characters : List Char) (lexer : Lexer) :
    ∃ line column, lexer.passAll characters = { lexer with
      rest := lexer.rest.drop characters.length, index := lexer.index + characters.length,
      line, column } := by
  induction characters generalizing lexer with
  | nil => exact ⟨lexer.line, lexer.column, rfl⟩
  | cons c characters ih =>
    obtain ⟨line, column, passed⟩ := ih (lexer.pass c)
    refine ⟨line, column, ?_⟩
    rw [passAll, List.foldl_cons, ← passAll, passed, pass]
    split
    · simp [Nat.add_assoc, Nat.add_comm 1]
    · split <;> simp [Nat.add_assoc, Nat.add_comm 1]

theorem narrow_replicate (width : Nat) : ∀ c ∈ List.replicate width ' ', isNarrow c = true := by
  intro c member
  rw [List.eq_of_mem_replicate member]
  rfl

theorem narrow_of_standsAlone (alone : StandsAlone characters) :
    ∀ c ∈ characters, isNarrow c = true := by
  intro c member
  have noDelimiter := alone.noDelimiter c member
  have noBreak := (ordinary_of_noDelimiter noDelimiter).2.1
  have noMark : c ≠ '\ufeff' := by
    rintro rfl
    revert noDelimiter
    decide +kernel
  simp [isNarrow, noBreak, noMark]

end Passing

section Blanks

theorem takeWhile_spaces (visible : Visible content) (width : Nat) :
    (List.replicate width ' ' ++ content).takeWhile (· = ' ') = List.replicate width ' ' := by
  induction width with
  | zero =>
    cases content with
    | nil => rfl
    | cons c rest => simp [(visible c rfl).1]
  | succ width ih => simp [List.replicate_succ, ih]

theorem skipBlanks_eq (passed : lexer.passAll (lexer.rest.takeWhile (· = ' ')) = state)
    (visible : Visible state.rest) (fuel : Nat) : skipBlanks (fuel + 1) lexer = state := by
  rw [skipBlanks]
  dsimp only
  rw [passed]
  obtain ⟨rest⟩ := state
  cases rest with
  | nil => rfl
  | cons c rest =>
    obtain ⟨-, noComment, noBreak⟩ := visible c rfl
    simp [noComment, noBreak, passAll]

theorem skipBlanks_visible (visible : Visible lexer.rest) (fuel : Nat) :
    skipBlanks (fuel + 1) lexer = lexer := by
  refine skipBlanks_eq ?_ visible fuel
  have noSpaces := takeWhile_spaces visible 0
  rw [List.replicate_zero, List.nil_append] at noSpaces
  rw [noSpaces]
  rfl

theorem skipBlanks_spaces (visible : Visible content) (fuel : Nat) :
    skipBlanks (fuel + 1)
        (block (List.replicate width ' ' ++ content) index line column columns mayStartName) =
      block content (index + width) line (column + width) columns mayStartName := by
  refine skipBlanks_eq ?_ visible fuel
  rw [takeWhile_spaces visible, passAll_narrow (narrow_replicate width)]
  dsimp only
  rw [List.length_replicate, List.drop_left' (List.length_replicate ..)]

theorem skipBlanks_break (visible : Visible content) (fuel : Nat) :
    skipBlanks (fuel + 2) (block ('\n' :: (List.replicate width ' ' ++ content)) index line column
        columns mayStartName) =
      block content (index + 1 + width) (line + 1) width columns true := by
  have breaks : isBreak '\n' = true := rfl
  have below : skipBlanks (fuel + 1)
      (block (List.replicate width ' ' ++ content) (index + 1) (line + 1) 0 columns true) =
      block content (index + 1 + width) (line + 1) (0 + width) columns true :=
    skipBlanks_spaces visible fuel
  rw [Nat.zero_add] at below
  rw [skipBlanks]
  simpa [passAll, breaks, pass, inFlow] using below

end Blanks

section Steps

theorem toNext_eq (skipped : skipBlanks fuel lexer = state) (noFlow : state.outer = [])
    (near : state.dropFar state.place = .ok state.place) : lexer.toNext fuel = .ok state := by
  obtain ⟨_, _, _, _, _, place, outer, _⟩ := state
  cases noFlow
  simp only [toNext, skipped, near]
  rfl

theorem close_reached (reached : ∀ k ∈ lexer.columns.head?, k ≤ lexer.column) :
    lexer.close (· ≤ lexer.column) = ([], lexer) := by
  obtain ⟨_, _, _, column, columns, _, outer, _⟩ := lexer
  rw [close]
  split
  · rfl
  · cases columns with
    | nil => rfl
    | cons k columns =>
      have atMost : k ≤ column := reached k rfl
      simp [atMost]

/-- One round of the lexer in which nothing is closed. -/
theorem marks_eq (arrives : lexer.toNext (fuel + 1) = .ok state)
    (reached : ∀ k ∈ state.columns.head?, k ≤ state.column) (seen : state.rest = c :: rest)
    (stepped : state.next c rest = .ok (found, after)) :
    lexer.marks (fuel + 1) = found ++ after.marks fuel := by
  rw [marks, arrives]
  dsimp only
  rw [close_reached reached]
  dsimp only
  rw [seen]
  dsimp only
  rw [stepped]
  rfl

theorem marks_congr (same : lexer.toNext (fuel + 1) = state.toNext (fuel + 1)) :
    lexer.marks (fuel + 1) = state.marks (fuel + 1) := by
  rw [marks, marks, same]

theorem before_append (characters rest : List Char) (seen : lexer.rest = characters ++ rest) :
    lexer.before rest = characters := by
  simp [before, seen]

theorem isMark_ne {sign : Char} (other : c ≠ sign) (rest : List Char) :
    isMark sign (c :: rest) = false := by
  match rest with
  | [] | [_] => rfl
  | _ :: _ :: _ => simp [isMark, other]

theorem next_plain (noIndicator : isIndicator c = false) (noDelimiter : isDelimiter c = false)
    (noMark : c ≠ '.' ∨ lexer.column ≠ 0) : lexer.next c rest = lexer.plain := by
  have other (d : Char) (indicator : isIndicator d = true) : c ≠ d := by
    rintro rfl
    rw [indicator] at noIndicator
    cases noIndicator
  obtain ⟨noSpacing, noBreak, -⟩ := ordinary_of_noDelimiter noDelimiter
  have noEnd : (decide (lexer.column = 0) && isMark '.' (c :: rest)) = false := by
    rcases noMark with other | inside
    · rw [isMark_ne other, Bool.and_false]
    · simp [inside]
  simp [next, noEnd, isMark_ne (other '-' rfl), startsPlain, noSpacing, noBreak, noIndicator,
    other '%' rfl, other '[' rfl, other '\x7b' rfl, other ']' rfl, other '\x7d' rfl, other ',' rfl,
    other '-' rfl, other '?' rfl, other ':' rfl, other '*' rfl, other '&' rfl, other '!' rfl,
    other '|' rfl, other '>' rfl, other '\'' rfl, other '"' rfl]

end Steps

/-- All that is left to read from a state becomes these tokens, if there is fuel for each character.
No name in it belongs to a place in front of it. -/
def Yields (lexer : Lexer) (tokens : List Token) : Prop :=
  ∀ fuel, lexer.rest.length < fuel → Mark.resolve (lexer.marks fuel) = (tokens, [])

/-- The tokens from a line on whose indentation has been passed over. -/
def Starts (columns : List Nat) (column : Nat) (content : List Char) (tokens : List Token) : Prop :=
  ∀ index line, (block content index line column columns true).Yields tokens

/-- The tokens behind the colon of a field. -/
def Follows (columns : List Nat) (rest : List Char) (tokens : List Token) : Prop :=
  ∀ index line column, (∀ k ∈ columns.head?, k ≤ column) →
    (block rest index line column columns false).Yields tokens

/-- The tokens from the start of a line on that is indented by `most` columns at most. -/
def Below (most : Nat) (columns : List Nat) (text : List Char) (tokens : List Token) : Prop :=
  ∃ width content, width ≤ most ∧ text = List.replicate width ' ' ++ content ∧ Visible content ∧
    Starts columns width content tokens

section Lines

variable {token : Token} {most outermost : Nat} {text : List Char} {name value : List Char}

theorem Yields.of_step (arrives : ∀ fuel, lexer.toNext (fuel + 1) = .ok state)
    (reached : ∀ k ∈ state.columns.head?, k ≤ state.column) (seen : state.rest = c :: rest)
    (stepped : state.next c rest = .ok ([.token token], after))
    (shorter : after.rest.length < lexer.rest.length) (yields : after.Yields tokens) :
    lexer.Yields (token :: tokens) := by
  intro fuel enough
  cases fuel with
  | zero => cases enough
  | succ fuel =>
    have behind := yields fuel (by omega)
    rw [marks_eq (arrives fuel) reached seen stepped, List.singleton_append, Mark.resolve, behind]

theorem Yields.of_toNext (same : ∀ fuel, lexer.rest.length < fuel + 1 →
      lexer.toNext (fuel + 1) = state.toNext (fuel + 1))
    (shorter : state.rest.length ≤ lexer.rest.length) (yields : state.Yields tokens) :
    lexer.Yields tokens := by
  intro fuel enough
  cases fuel with
  | zero => cases enough
  | succ fuel =>
    rw [marks_congr (same fuel enough)]
    exact yields (fuel + 1) (by omega)

theorem toNext_visible (visible : Visible content) (fuel : Nat) :
    (block content index line column columns mayStartName).toNext (fuel + 1) =
      .ok (block content index line column columns mayStartName) :=
  toNext_eq (skipBlanks_visible visible fuel) rfl rfl

theorem toNext_space (visible : Visible content) (fuel : Nat) :
    (block (' ' :: content) index line column columns mayStartName).toNext (fuel + 1) =
      .ok (block content (index + 1) line (column + 1) columns mayStartName) := by
  have skipped : skipBlanks (fuel + 1)
      (block (List.replicate 1 ' ' ++ content) index line column columns mayStartName) =
        block content (index + 1) line (column + 1) columns mayStartName :=
    skipBlanks_spaces visible fuel
  exact toNext_eq skipped rfl rfl

/-- The line is over, and what follows is the next one. -/
theorem Below.ended (below : Below most columns text tokens) (index line column : Nat) :
    (block ('\n' :: text) index line column columns false).Yields tokens := by
  obtain ⟨width, content, -, rfl, visible, starts⟩ := below
  refine Yields.of_toNext (fun fuel enough => ?_) ?_ (starts (index + 1 + width) (line + 1))
  · cases fuel with
    | zero => simp at enough
    | succ fuel =>
      rw [toNext_visible visible]
      exact toNext_eq (skipBlanks_break visible fuel) rfl rfl
  · simp
    omega

theorem Below.mono (below : Below most columns text tokens) (le : most ≤ outermost) :
    Below outermost columns text tokens := by
  obtain ⟨width, content, inside, same, visible, starts⟩ := below
  exact ⟨width, content, Nat.le_trans inside le, same, visible, starts⟩

/-- What is open further in than a line ends in front of it. -/
theorem Below.close (below : Below most columns text tokens) (inside : most < column) :
    Below most (column :: columns) text (.blockEnd :: tokens) := by
  obtain ⟨width, content, le, same, visible, starts⟩ := below
  refine ⟨width, content, le, same, visible, fun index line fuel enough => ?_⟩
  have unreached : ¬ column ≤ width := by omega
  cases fuel with
  | zero => cases enough
  | succ fuel =>
    have closed : (block content index line width (column :: columns) true).marks (fuel + 1) =
        .token .blockEnd :: (block content index line width columns true).marks (fuel + 1) := by
      rw [marks, marks, toNext_visible visible, toNext_visible visible]
      simp [Lexer.close, inFlow, unreached]
    rw [closed, Mark.resolve, starts index line (fuel + 1) enough]

/-- Where the text is over, so is the record that all of it is. -/
theorem below_end : Below 0 [0] [] [.blockEnd, .textEnd] := by
  refine ⟨0, [], Nat.le_refl 0, rfl, visible_nil, fun index line fuel enough => ?_⟩
  cases fuel with
  | zero => cases enough
  | succ fuel =>
    rw [marks, toNext_visible visible_nil]
    rfl

theorem next_dash (content : List Char) (index line column : Nat) (columns : List Nat) :
    (block ('-' :: ' ' :: content) index line column (column :: columns) true).next '-'
        (' ' :: content) =
      .ok ([.token .item],
        block (' ' :: content) (index + 1) line (column + 1) (column :: columns) true) := by
  have noStart : isMark '-' ('-' :: ' ' :: content) = false := by
    cases content <;> simp [isMark]
  have noEnd : isMark '.' ('-' :: ' ' :: content) = false := isMark_ne (by decide) _
  have blank : atBlank (' ' :: content) = true := rfl
  have narrow : isNarrow '-' = true := rfl
  have dashed : next '-' (' ' :: content)
      (block ('-' :: ' ' :: content) index line column (column :: columns) true) =
        sign .blockList .item '-' true
          (block ('-' :: ' ' :: content) index line column (column :: columns) true) := by
    simp [next, noStart, noEnd, blank]
  rw [dashed]
  simp [sign, openAt, indent, inFlow, unnameable, dropPlace, passAll, pass_narrow narrow, pure,
    Except.pure, bind, Except.bind]

theorem starts_item (visible : Visible content)
    (starts : Starts (column :: columns) (column + 2) content tokens) :
    Starts (column :: columns) column ('-' :: ' ' :: content) (.item :: tokens) := by
  intro index line
  have dash : Visible ('-' :: ' ' :: content) := by
    rintro _ ⟨⟩
    decide
  have behind : (block (' ' :: content) (index + 1) line (column + 1) (column :: columns)
      true).Yields tokens := by
    refine Yields.of_toNext (fun fuel _ => ?_) ?_ (starts (index + 2) line)
    · rw [toNext_space visible, toNext_visible visible]
    · simp
  exact behind.of_step (toNext_visible dash) (by simp) rfl (next_dash ..) (by simp)

section Names

theorem nameable_inside (inside : lexer.mayStartName = false) (token : Token)
    (characters : List Char) :
    lexer.nameable token characters =
      .ok ([.token token], { lexer.passAll characters with mayStartName := false }) := by
  simp [nameable, inside]

theorem next_quote (rest : List Char) (lexer : Lexer) :
    lexer.next '\'' rest = lexer.quotedScalar false rest := by
  have noStart : isMark '-' ('\'' :: rest) = false := isMark_ne (by decide) _
  have noEnd : isMark '.' ('\'' :: rest) = false := isMark_ne (by decide) _
  simp [next, noStart, noEnd]

theorem next_quoted (oneLine : ∀ c ∈ value, isBreak c = false) (rest : List Char)
    (index line column : Nat) (columns : List Nat) :
    ∃ line' column', (block (quoteText value ++ '\n' :: rest) index line column columns false).next
        '\'' (value.flatMap quoteCharacter ++ '\'' :: '\n' :: rest) =
      .ok ([.token (.scalar false ⟨value.map .character⟩)],
        block ('\n' :: rest) (index + (quoteText value).length) line' column' columns false) := by
  have enough : value.length <
      (value.flatMap quoteCharacter ++ '\'' :: '\n' :: rest).length + 1 := by
    have inside := length_le_flatMap_quote value
    rw [List.length_append]
    omega
  have read : quoted false _ (value.flatMap quoteCharacter ++ '\'' :: '\n' :: rest) =
      .ok (value.map .character, '\n' :: rest) :=
    quoted_flatMap oneLine (by simp) enough
  obtain ⟨line', column', passed⟩ := exists_passAll (quoteText value)
    (block (quoteText value ++ '\n' :: rest) index line column columns false)
  refine ⟨line', column', ?_⟩
  rw [next_quote, quotedScalar, read]
  simp only [bind, Except.bind]
  rw [nameable_inside rfl, before_append (quoteText value) _ rfl, passed]
  simp

theorem passAll_line (narrow : ∀ c ∈ characters, isNarrow c = true) (width : Nat)
    (content : List Char) (index line column : Nat) (columns : List Nat) (mayStartName : Bool) :
    (block (characters ++ '\n' :: (List.replicate width ' ' ++ content)) index line column columns
        mayStartName).passAll (characters ++ '\n' :: List.replicate width ' ') =
      block content (index + characters.length + 1 + width) (line + 1) width columns
        mayStartName := by
  have breaks : isBreak '\n' = true := rfl
  rw [passAll_append, passAll_narrow narrow, passAll, List.foldl_cons, ← passAll,
    passAll_narrow (narrow_replicate width)]
  simp [pass, breaks]

theorem next_value (alone : StandsAlone (c :: value)) (visible : Visible content)
    (le : width ≤ outermost) (inside : column ≠ 0) (index line : Nat) (columns : List Nat) :
    (block (c :: value ++ '\n' :: (List.replicate width ' ' ++ content)) index line column
        (outermost :: columns) false).next c
        (value ++ '\n' :: (List.replicate width ' ' ++ content)) =
      .ok ([.token (.scalar true (String.ofList (c :: value)))],
        block content (index + (c :: value).length + 1 + width) (line + 1) width
          (outermost :: columns) true) := by
  have noIndicator : isIndicator c = false := alone.noIndicator c rfl
  have noDelimiter : isDelimiter c = false := alone.noDelimiter c List.mem_cons_self
  rw [next_plain noIndicator noDelimiter (.inr inside)]
  generalize state : block (c :: value ++ '\n' :: (List.replicate width ' ' ++ content)) index line
    column (outermost :: columns) false = lexer
  have read : Plain.read lexer.inFlow (lexer.indent + 1).toNat lexer.rest.length lexer.rest =
      ⟨c :: value, content, true⟩ := by
    rw [← state]
    exact alone.read_value visible (Nat.lt_succ_of_le le)
  have front : lexer.before content = c :: value ++ '\n' :: List.replicate width ' ' :=
    before_append _ _ (by simp [← state])
  have passed := passAll_line (narrow_of_standsAlone alone) width content index line column
    (outermost :: columns) false
  rw [state] at passed
  rw [plain]
  dsimp only
  rw [read, nameable_inside (by rw [← state]), front, passed]
  rfl

/-- The state behind a name that has been started in a column, in front of its colon. -/
def named (name rest : List Char) (index line column : Nat) (columns : List Nat)
    (isRequired : Bool) : Lexer :=
  { rest := ':' :: rest, index := index + name.length, line, column := column + name.length, columns
    place := some ⟨index, line, column, isRequired⟩
    mayStartName := false }

theorem next_name (alone : StandsAlone (c :: name)) (noPoint : c ≠ '.')
    (blank : atBlank rest = true) (index line column : Nat) (columns : List Nat) :
    ∃ isRequired, (block (c :: name ++ ':' :: rest) index line column columns true).next c
        (name ++ ':' :: rest) =
      .ok ([.place index, .token (.scalar true (String.ofList (c :: name)))],
        named (c :: name) rest index line column columns isRequired) := by
  have noIndicator : isIndicator c = false := alone.noIndicator c rfl
  have noDelimiter : isDelimiter c = false := alone.noDelimiter c List.mem_cons_self
  rw [next_plain noIndicator noDelimiter (.inl noPoint)]
  generalize state : block (c :: name ++ ':' :: rest) index line column columns true = lexer
  have read : Plain.read lexer.inFlow (lexer.indent + 1).toNat lexer.rest.length lexer.rest =
      ⟨c :: name, ':' :: rest, false⟩ := by
    rw [← state]
    exact alone.read_name blank
  have front : lexer.before (':' :: rest) = c :: name :=
    before_append _ _ (by simp [← state])
  refine ⟨lexer.indent = column, ?_⟩
  rw [plain]
  dsimp only
  rw [read, front, nameable, ← state]
  simp [dropPlace, bind, Except.bind, inFlow, passAll_narrow (narrow_of_standsAlone alone), named]
  rfl

/-- The colon makes a name of what has been started, which opens a record if none is open in its
column. -/
theorem next_colon (name : List Char) (blank : atBlank rest = true)
    (index line column : Nat) (columns : List Nat) (isRequired : Bool) {opens : Bool}
    (isNew : decide ((block rest index line column columns false).indent < column) = opens) :
    (named name rest index line column columns isRequired).next ':' rest =
      .ok ([.named index opens],
        block rest (index + name.length + 1) line (column + name.length + 1)
          (if opens then column :: columns else columns) false) := by
  have noStart : isMark '-' (':' :: rest) = false := isMark_ne (by decide) _
  have noEnd : isMark '.' (':' :: rest) = false := isMark_ne (by decide) _
  have narrow : isNarrow ':' = true := rfl
  have signed : (named name rest index line column columns isRequired).next ':' rest =
      (named name rest index line column columns isRequired).colon := by
    simp [next, noStart, noEnd, blank]
  have opened : openAt column { named name rest index line column columns isRequired with
        place := none } =
      (opens, { named name rest index line column columns isRequired with
        place := none, columns := if opens then column :: columns else columns }) := by
    cases opens with
    | true => exact if_pos isNew
    | false => exact if_neg (Bool.not_eq_true _ ▸ isNew)
  rw [signed, colon]
  simp only [named] at opened ⊢
  rw [opened, pass_narrow narrow]
  rfl

theorem toNext_named (short : name.length ≤ 1024) (rest : List Char) (index line column : Nat)
    (columns : List Nat) (isRequired : Bool) (fuel : Nat) :
    (named name rest index line column columns isRequired).toNext (fuel + 1) =
      .ok (named name rest index line column columns isRequired) := by
  have colon : Visible (':' :: rest) := by
    rintro _ ⟨⟩
    decide
  refine toNext_eq (skipBlanks_visible colon fuel) rfl ?_
  simp [dropFar, isNear, named, short]

theorem resolve_named {marks : List Mark} (resolved : Mark.resolve marks = (tokens, []))
    (index : Nat) (text : Text) (opens : Bool) :
    Mark.resolve (.place index :: .token (.scalar true text) :: .named index opens :: marks) =
      ((if opens then [.blockRecord] else []) ++ .name :: .scalar true text :: .value :: tokens,
        []) := by
  cases opens <;> simp [Mark.resolve, resolved, Mark.tokensAt]

theorem starts_name (opens : Bool) (alone : StandsAlone name) (noPoint : name.head? ≠ some '.')
    (short : name.length ≤ 1024) (blank : atBlank rest = true)
    (reached : ∀ k ∈ columns.head?, k ≤ column)
    (isNew : decide ((block rest 0 0 0 columns false).indent < column) = opens)
    (follows : Follows (if opens then column :: columns else columns) rest tokens) :
    Starts columns column (name ++ ':' :: rest) ((if opens then [.blockRecord] else []) ++
      .name :: .scalar true (String.ofList name) :: .value :: tokens) := by
  intro index line fuel enough
  cases name with
  | nil => exact absurd rfl alone.nonempty
  | cons c name =>
    match fuel with
    | 0 | 1 => simp at enough
    | fuel + 2 =>
      obtain ⟨isRequired, stepped⟩ := next_name alone (fun same => noPoint (by rw [same]; rfl))
        blank index line column columns
      have named : (named (c :: name) rest index line column columns isRequired).marks (fuel + 1) =
          [.named index opens] ++ (block rest (index + (c :: name).length + 1) line
            (column + (c :: name).length + 1)
            (if opens then column :: columns else columns) false).marks fuel :=
        marks_eq (toNext_named short ..)
          (fun k innermost => Nat.le_trans (reached k innermost) (Nat.le_add_right ..)) rfl
          (next_colon (c :: name) blank index line column columns isRequired isNew)
      have reached' : ∀ k ∈ (if opens then column :: columns else columns).head?,
          k ≤ column + (c :: name).length + 1 := by
        intro k innermost
        cases opens with
        | true =>
          cases innermost
          omega
        | false => exact Nat.le_trans (reached k innermost) (by omega)
      have fewer : rest.length < fuel := by
        simp only [List.length_append, List.length_cons] at enough
        omega
      have behind := follows (index + (c :: name).length + 1) line _ reached' fuel fewer
      rw [marks_eq (toNext_visible (alone.visible _) _) reached rfl stepped, named]
      exact resolve_named behind index _ opens

theorem starts_first (alone : StandsAlone name) (noPoint : name.head? ≠ some '.')
    (short : name.length ≤ 1024) (blank : atBlank rest = true)
    (outside : ∀ k ∈ columns.head?, k < column)
    (follows : Follows (column :: columns) rest tokens) :
    Starts columns column (name ++ ':' :: rest)
      (.blockRecord :: .name :: .scalar true (String.ofList name) :: .value :: tokens) := by
  refine starts_name true alone noPoint short blank
    (fun k innermost => Nat.le_of_lt (outside k innermost)) ?_ follows
  cases columns with
  | nil => exact decide_eq_true (by simp [indent]; omega)
  | cons k columns => exact decide_eq_true (Int.ofNat_lt.mpr (outside k rfl))

theorem starts_further (alone : StandsAlone name) (noPoint : name.head? ≠ some '.')
    (short : name.length ≤ 1024) (blank : atBlank rest = true)
    (follows : Follows (column :: columns) rest tokens) :
    Starts (column :: columns) column (name ++ ':' :: rest)
      (.name :: .scalar true (String.ofList name) :: .value :: tokens) := by
  refine starts_name false alone noPoint short blank (by simp) ?_ follows
  exact decide_eq_false (Int.lt_irrefl _)

end Names

theorem follows_quoted (oneLine : ∀ c ∈ value, isBreak c = false)
    (below : Below most columns text tokens) :
    Follows columns (' ' :: (quoteText value ++ '\n' :: text))
      (.scalar false ⟨value.map .character⟩ :: tokens) := by
  intro index line column reached
  have quote : Visible (quoteText value ++ '\n' :: text) := by
    rintro _ ⟨⟩
    decide
  obtain ⟨line', column', stepped⟩ := next_quoted oneLine text (index + 1) line (column + 1) columns
  refine (below.ended _ line' column').of_step (toNext_space quote) ?_ ?_ stepped ?_
  · intro k innermost
    exact Nat.le_succ_of_le (reached k innermost)
  · simp [quoteText_eq]
  · simp only [List.length_cons, List.length_append]
    omega

/-- A plain value takes in the indentation of the next line, which is not further in than the name
of the field. -/
theorem follows_plain (alone : StandsAlone value)
    (below : Below column (column :: columns) text tokens) :
    Follows (column :: columns) (' ' :: (value ++ '\n' :: text))
      (.scalar true (String.ofList value) :: tokens) := by
  obtain ⟨width, content, le, rfl, visible, starts⟩ := below
  intro index line column' reached
  cases value with
  | nil => exact absurd rfl alone.nonempty
  | cons c value =>
    have stepped := next_value alone visible le (Nat.succ_ne_zero column') (index + 1) line columns
    refine (starts _ (line + 1)).of_step (toNext_space (alone.visible _)) ?_ rfl stepped ?_
    · intro k innermost
      exact Nat.le_succ_of_le (reached k innermost)
    · simp
      omega

end Lines

end Lexer
end Uncertainty.Yaml

import Uncertainty.Document.Yaml.Reader
import Uncertainty.Proofs.Document.Order
import Uncertainty.Proofs.Document.Yaml.Lexing
import Uncertainty.Proofs.Document.Yaml.Parsing

/-!
Documents of texts, records and lists of records, written as YAML and read back. The lines of each
become tokens behind its name, from these tokens a node is built, and the node stands for the same
document.
-/
namespace Uncertainty

@[simp] theorem Text.shown_ofString (s : String) : (Text.ofString s).shown = s := by
  simp [Text.shown, Text.ofString, Function.comp_def, CodePoint.character?]

namespace Yaml

open Document (named)
open Lexer (Below Follows Starts)

/-- A character that may stand in a document and is read there as it is. -/
def isPermitted (c : Char) : Bool :=
  isAllowed c && c ≠ '\r' && c ≠ '\u0085'

/-- A name that stands for itself, also at the start of a document. -/
structure IsName (name : String) : Prop where
  alone : StandsAlone name.toList
  noPoint : name.toList.head? ≠ some '.'
  short : name.toList.length ≤ 1024
  permitted : ∀ c ∈ name.toList, isPermitted c = true

/-- The fields of a record: there are some, and their names ascend. -/
structure Formed (fields : List (String × Document)) : Prop where
  nonempty : fields ≠ []
  ascending : Document.Ascending (fields.map Prod.fst)
  names : ∀ field ∈ fields, IsName field.1

/-- Documents of texts on one line, records and lists of records, none of which is empty. -/
inductive Regular : Document → Prop where
  | text {s : String} (permitted : ∀ c ∈ s.toList, isPermitted c = true)
      (oneLine : ∀ c ∈ s.toList, isBreak c = false) : Regular (.text s)
  | record {fields : List (String × Document)} (formed : Formed fields)
      (members : ∀ field ∈ fields, Regular field.2) : Regular (.record (named fields))
  | list {records : List (List (String × Document))} (nonempty : records ≠ [])
      (formed : ∀ fields ∈ records, Formed fields)
      (members : ∀ fields ∈ records, ∀ field ∈ fields, Regular field.2) :
      Regular (.list (records.map fun fields => .record (named fields)))

section Layout

def textOf (lines : List Line) : List Char :=
  lines.flatMap Line.write

/-- What is written behind the colon of a field whose name is in a column. -/
def behindColon (column : Nat) : Document → List Char
  | .record (field :: fields) => '\n' :: textOf (fieldLines (column + 2) (field :: fields))
  | .list (item :: items) => '\n' :: textOf (itemLines column (item :: items))
  | value => ' ' :: (writeInline value ++ ['\n'])

/-- The lines of some fields without the indentation of the first one. -/
def recordText (column : Nat) : List (Scalar × Document) → List Char
  | [] => []
  | (name, value) :: rest =>
    writeScalar name ++ ':' :: (behindColon column value ++ textOf (fieldLines column rest))

theorem textOf_cons (indent : Nat) (content : List Char) (lines : List Line) :
    textOf (.ended indent content :: lines) =
      List.replicate indent ' ' ++ content ++ '\n' :: textOf lines := by
  simp [textOf, Line.ended, Line.write]

theorem textOf_append (lines others : List Line) :
    textOf (lines ++ others) = textOf lines ++ textOf others :=
  List.flatMap_append

theorem exists_fieldLines (column : Nat) (name : Scalar) {value : Document}
    (rest : List (Scalar × Document)) (regular : Regular value) :
    ∃ content lines, fieldLines column ((name, value) :: rest) = .ended column content :: lines ∧
      content ++ '\n' :: textOf lines = recordText column ((name, value) :: rest) := by
  cases regular with
  | text => exact ⟨_, _, rfl, by simp [recordText, behindColon]⟩
  | @record fields formed =>
    cases fields with
    | nil => exact absurd rfl formed.nonempty
    | cons field fields =>
      exact ⟨_, _, rfl, by simp [recordText, behindColon, named, textOf_append]⟩
  | @list records nonempty =>
    cases records with
    | nil => exact absurd rfl nonempty
    | cons fields records =>
      exact ⟨_, _, rfl, by simp [recordText, behindColon, named, textOf_append]⟩

theorem textOf_fieldLines (column : Nat) {fields : List (String × Document)}
    (nonempty : fields ≠ []) (regular : ∀ field ∈ fields, Regular field.2) :
    textOf (fieldLines column (named fields)) =
      List.replicate column ' ' ++ recordText column (named fields) := by
  cases fields with
  | nil => exact absurd rfl nonempty
  | cons field fields =>
    obtain ⟨content, lines, split, joined⟩ := exists_fieldLines column (.text field.1)
      (named fields) (regular field List.mem_cons_self)
    rw [named, List.map_cons, ← named, split, textOf_cons, List.append_assoc, joined]

/-- The first line of an item stands behind the dash, two columns further in. -/
theorem textOf_itemLines (column : Nat) {fields : List (String × Document)}
    (nonempty : fields ≠ []) (regular : ∀ field ∈ fields, Regular field.2)
    (documents : List Document) :
    textOf (itemLines column (.record (named fields) :: documents)) =
      List.replicate column ' ' ++ '-' :: ' ' :: (recordText (column + 2) (named fields) ++
        textOf (itemLines column documents)) := by
  cases fields with
  | nil => exact absurd rfl nonempty
  | cons field fields =>
    obtain ⟨content, lines, split, joined⟩ := exists_fieldLines (column + 2) (.text field.1)
      (named fields) (regular field List.mem_cons_self)
    rw [itemLines, textOf_append, named, List.map_cons, ← named, blockLines, split, dashed,
      textOf_cons, ← joined]
    simp [Line.ended]

theorem atBlank_behindColon (column : Nat) (document : Document) (text : List Char) :
    atBlank (behindColon column document ++ text) = true := by
  unfold behindColon
  split <;> rfl

end Layout

variable {document : Document} {documents : List Document} {fields : List (String × Document)}
variable {tokens : List Token} {node : Node} {nodes : List Node} {members : List (Node × Node)}

/-- What is written for the value of a field becomes these tokens, these make this node, and the
node stands for the document. -/
structure Spells (document : Document) (tokens : List Token) (node : Node) : Prop where
  permitted : ∀ column, ∀ c ∈ behindColon column document, isPermitted c = true
  follows : ∀ column columns text others, Below column (column :: columns) text others →
    Follows (column :: columns) (behindColon column document ++ text) (tokens ++ others)
  builds : BuildsValue tokens node
  reads : ∀ depth, documentAt depth node = .ok document

/-- The same for the fields of a record, the first of which opens it unless others stand in front of
it. -/
structure SpellsFields (fields : List (String × Document)) (tokens : List Token)
    (members : List (Node × Node)) : Prop where
  permitted : ∀ column, ∀ c ∈ textOf (fieldLines column (named fields)), isPermitted c = true
  below : ∀ column columns text others, Below column (column :: columns) text others →
    Below column (column :: columns) (textOf (fieldLines column (named fields)) ++ text)
      (tokens ++ others)
  opens : fields ≠ [] → ∀ column columns text others, (∀ k ∈ columns.head?, k < column) →
    Below column (column :: columns) text others →
    Visible (recordText column (named fields) ++ text) ∧
    Starts columns column (recordText column (named fields) ++ text)
      (.blockRecord :: (tokens ++ others))
  builds : BuildsFields tokens members
  merges : Node.canMerge members = true
  reads : ∀ depth, fieldsAt depth members = (.ok [], .ok (named fields))

/-- The same for the items of a list in a field. -/
structure SpellsItems (documents : List Document) (tokens : List Token) (nodes : List Node) :
    Prop where
  permitted : ∀ column, ∀ c ∈ textOf (itemLines column documents), isPermitted c = true
  below : ∀ column columns text others, Below column (column :: columns) text others →
    Below column (column :: columns) (textOf (itemLines column documents) ++ text)
      (tokens ++ others)
  builds : BuildsItems tokens nodes
  reads : ∀ depth, itemsAt depth nodes = .ok documents

def Recovers (document : Document) : Prop :=
  ∃ tokens node, Spells document tokens node

section Texts

theorem scalar_text (s : String) : scalar .text s = .ok (.text s) := by
  simp [scalar, scalarOf]

theorem nameAt_text (depth : Nat) (s : String) :
    nameAt depth (.scalar .text s) = .ok (.text s) := by
  change Outcome.ofExcept depth (scalar .text s) = _
  rw [scalar_text]
  rfl

theorem documentAt_text (depth : Nat) (s : String) :
    documentAt depth (.scalar .text s) = .ok (.text s) := by
  rw [documentAt]
  · change (Outcome.ofExcept depth (scalar .text s)).map Document.scalar = _
    rw [scalar_text]
    rfl
  all_goals simp

theorem tagOf_alone {s : String} (alone : StandsAlone s.toList) :
    Properties.tagOf {} true s = .text := by
  simp [Properties.tagOf, Properties.tag?, alone.isText]

theorem writeText_alone {s : String} (alone : StandsAlone s.toList) : writeText s = s.toList := by
  rw [writeText, Text.shown_ofString]
  exact if_pos (isPlain_iff.mpr alone)

theorem writeText_quoted {s : String} (noPlain : ¬ StandsAlone s.toList) :
    writeText s = quoteText s.toList := by
  rw [writeText, Text.shown_ofString]
  exact if_neg fun plain => noPlain (isPlain_iff.mp plain)

theorem behindColon_text (column : Nat) (s : String) :
    behindColon column (.text s) = ' ' :: (writeText s ++ ['\n']) :=
  rfl

theorem permitted_quoteText {characters : List Char}
    (permitted : ∀ c ∈ characters, isPermitted c = true) :
    ∀ c ∈ quoteText characters, isPermitted c = true := by
  have quote : isPermitted '\'' = true := by decide
  have quoted : ∀ c ∈ characters, ∀ d ∈ quoteCharacter c, isPermitted d = true := by
    intro c member d
    unfold quoteCharacter
    split
    · simpa using fun same => same ▸ quote
    · simpa using fun same => same ▸ permitted c member
  intro c member
  simp only [quoteText_eq, List.mem_cons, List.mem_append, List.mem_flatMap] at member
  rcases member with rfl | ⟨c, inside, member⟩ | rfl | never
  · exact quote
  · exact quoted c inside _ member
  · exact quote
  · cases never

theorem permitted_writeText {s : String} (permitted : ∀ c ∈ s.toList, isPermitted c = true) :
    ∀ c ∈ writeText s, isPermitted c = true := by
  by_cases alone : StandsAlone s.toList
  · rwa [writeText_alone alone]
  · rw [writeText_quoted alone]
    exact permitted_quoteText permitted

theorem permitted_behindColon {s : String} (permitted : ∀ c ∈ s.toList, isPermitted c = true)
    (column : Nat) : ∀ c ∈ behindColon column (.text s), isPermitted c = true := by
  intro c member
  simp only [behindColon_text, List.mem_cons, List.mem_append] at member
  rcases member with rfl | inside | rfl | never
  · decide
  · exact permitted_writeText permitted c inside
  · decide
  · cases never

theorem recovers_text {s : String} (permitted : ∀ c ∈ s.toList, isPermitted c = true)
    (oneLine : ∀ c ∈ s.toList, isBreak c = false) : Recovers (.text s) := by
  by_cases alone : StandsAlone s.toList
  · refine ⟨[.scalar true s], .scalar .text s, permitted_behindColon permitted, ?_, ?_,
      fun depth => documentAt_text depth s⟩
    · intro column columns text others below
      have followed := Lexer.follows_plain alone below
      rw [String.ofList_toList] at followed
      rwa [behindColon_text, writeText_alone alone, List.cons_append, List.append_assoc]
    · have builds := buildsValue_scalar true s
      rwa [tagOf_alone alone] at builds
  · refine ⟨[.scalar false s], .scalar .text s, permitted_behindColon permitted, ?_, ?_,
      fun depth => documentAt_text depth s⟩
    · intro column columns text others below
      have followed := Lexer.follows_quoted oneLine below
      rwa [behindColon_text, writeText_quoted alone, List.cons_append, List.append_assoc]
    · exact buildsValue_scalar false s

end Texts

section Fields

variable {name : String} {value : Document} {others : List Token}

theorem spellsFields_nil : SpellsFields [] [] [] :=
  ⟨nofun, fun _ _ _ _ below => below, fun nonempty => absurd rfl nonempty, buildsFields_nil, rfl,
    fun _ => by rw [fieldsAt]; rfl⟩

theorem recordText_append (isName : IsName name) (column : Nat) (value : Document)
    (rest : List (Scalar × Document)) (text : List Char) :
    recordText column ((.text name, value) :: rest) ++ text = name.toList ++
      ':' :: (behindColon column value ++ (textOf (fieldLines column rest) ++ text)) := by
  have written : writeScalar (.text name) = name.toList := writeText_alone isName.alone
  rw [recordText, written, List.append_assoc, List.cons_append, List.append_assoc]

theorem visible_recordText (isName : IsName name) (column : Nat) (value : Document)
    (rest : List (Scalar × Document)) (text : List Char) :
    Visible (recordText column ((.text name, value) :: rest) ++ text) := by
  rw [recordText_append isName]
  exact isName.alone.visible _

theorem permitted_replicate (width : Nat) :
    ∀ c ∈ List.replicate width ' ', isPermitted c = true := by
  intro c member
  rw [List.eq_of_mem_replicate member]
  decide

theorem permitted_recordText {column : Nat} {rest : List (Scalar × Document)}
    (isName : IsName name) (onLine : ∀ c ∈ behindColon column value, isPermitted c = true)
    (below : ∀ c ∈ textOf (fieldLines column rest), isPermitted c = true) :
    ∀ c ∈ recordText column ((.text name, value) :: rest), isPermitted c = true := by
  have whole := recordText_append isName column value rest []
  rw [List.append_nil, List.append_nil] at whole
  intro c member
  simp only [whole, List.mem_append, List.mem_cons] at member
  rcases member with inName | rfl | inLine | inBelow
  · exact isName.permitted c inName
  · decide
  · exact onLine c inLine
  · exact below c inBelow

theorem SpellsFields.cons (isName : IsName name)
    (regular : ∀ field ∈ (name, value) :: fields, Regular field.2)
    (spells : Spells value tokens node) (behind : SpellsFields fields others members) :
    SpellsFields ((name, value) :: fields)
      (.name :: .scalar true name :: .value :: (tokens ++ others))
      ((.scalar .text name, node) :: members) := by
  have lines (column : Nat) : textOf (fieldLines column (named ((name, value) :: fields))) =
      List.replicate column ' ' ++ recordText column (named ((name, value) :: fields)) :=
    textOf_fieldLines column (List.cons_ne_nil _ _) regular
  have whole (column : Nat) (text : List Char) :
      recordText column (named ((name, value) :: fields)) ++ text = name.toList ++ ':' ::
        (behindColon column value ++ (textOf (fieldLines column (named fields)) ++ text)) :=
    recordText_append isName column value (named fields) text
  have blank (column : Nat) (text : List Char) :
      atBlank (behindColon column value ++ (textOf (fieldLines column (named fields)) ++ text)) :=
    atBlank_behindColon column value _
  have follows {column columns text tail} (below : Below column (column :: columns) text tail) :
      Follows (column :: columns)
        (behindColon column value ++ (textOf (fieldLines column (named fields)) ++ text))
        (tokens ++ (others ++ tail)) :=
    spells.follows _ _ _ _ (behind.below _ _ _ _ below)
  constructor
  case permitted =>
    intro column c member
    rw [lines, List.mem_append] at member
    rcases member with indentation | inText
    · exact permitted_replicate column c indentation
    · exact permitted_recordText isName (spells.permitted column) (behind.permitted column) c inText
  case below =>
    intro column columns text tail below
    have starts := Lexer.starts_further isName.alone isName.noPoint isName.short
      (blank column text) (follows below)
    rw [String.ofList_toList, ← whole] at starts
    refine ⟨column, recordText column (named ((name, value) :: fields)) ++ text, Nat.le_refl column,
      ?_, visible_recordText isName column value _ text, ?_⟩
    · rw [lines, List.append_assoc]
    · simpa using starts
  case opens =>
    intro _ column columns text tail outside below
    have starts := Lexer.starts_first isName.alone isName.noPoint isName.short
      (blank column text) outside (follows below)
    rw [String.ofList_toList, ← whole] at starts
    exact ⟨visible_recordText isName column value _ text, by simpa using starts⟩
  case builds =>
    have builds := behind.builds.cons spells.builds true name
    rwa [tagOf_alone isName.alone] at builds
  case merges => simp [Node.canMerge, Node.tag, behind.merges]
  case reads =>
    intro depth
    rw [fieldsAt, behind.reads, spells.reads, nameAt_text]
    rfl

theorem exists_spellsFields (names : ∀ field ∈ fields, IsName field.1)
    (regular : ∀ field ∈ fields, Regular field.2) (recovers : ∀ field ∈ fields, Recovers field.2) :
    ∃ tokens members, SpellsFields fields tokens members := by
  induction fields with
  | nil => exact ⟨[], [], spellsFields_nil⟩
  | cons field fields ih =>
    have regular' := List.forall_mem_cons.mp regular
    rw [List.forall_mem_cons] at names recovers
    obtain ⟨tokens, node, spells⟩ := recovers.1
    obtain ⟨others, members, behind⟩ := ih names.2 regular'.2 recovers.2
    exact ⟨_, _, .cons names.1 regular spells behind⟩

theorem SpellsFields.reads_record (spells : SpellsFields fields tokens members)
    (formed : Formed fields) (depth : Nat) :
    documentAt depth (.record .record members) = .ok (.record (named fields)) := by
  have collected : Document.ofFields (named fields) = .record (named fields) := by
    rw [Document.ofFields, formed.ascending.collect_named]
  rw [documentAt, recordAt, if_pos spells.merges, spells.reads, ← collected]
  rfl

/-- A record starts on the line below its name, two columns further in. -/
theorem SpellsFields.record (spells : SpellsFields fields tokens members) (formed : Formed fields)
    (regular : ∀ field ∈ fields, Regular field.2) :
    Spells (.record (named fields)) (.blockRecord :: (tokens ++ [.blockEnd]))
      (.record .record members) := by
  have behind (column : Nat) : behindColon column (.record (named fields)) =
      '\n' :: textOf (fieldLines (column + 2) (named fields)) := by
    cases fields with
    | nil => exact absurd rfl formed.nonempty
    | cons field fields => rfl
  have lines (column : Nat) : textOf (fieldLines column (named fields)) =
      List.replicate column ' ' ++ recordText column (named fields) :=
    textOf_fieldLines column formed.nonempty regular
  constructor
  case permitted =>
    intro column c member
    rw [behind, List.mem_cons] at member
    rcases member with rfl | below
    · decide
    · exact spells.permitted (column + 2) c below
  case follows =>
    intro column columns text others below
    have closed : Below (column + 2) ((column + 2) :: column :: columns) text
        (.blockEnd :: others) :=
      (below.close (Nat.lt_add_of_pos_right Nat.two_pos)).mono (Nat.le_add_right ..)
    obtain ⟨visible, starts⟩ := spells.opens formed.nonempty (column + 2) (column :: columns) text
      (.blockEnd :: others) (by simp) closed
    have inside : Below (column + 2) (column :: columns)
        (textOf (fieldLines (column + 2) (named fields)) ++ text)
        (.blockRecord :: (tokens ++ .blockEnd :: others)) :=
      ⟨column + 2, _, Nat.le_refl _, by rw [lines, List.append_assoc], visible, starts⟩
    rw [behind]
    intro index line column' _
    simpa using inside.ended index line column'
  case builds => exact spells.builds.record
  case reads => exact spells.reads_record formed

end Fields

section Items

variable {records : List (List (String × Document))} {others : List Token}

theorem spellsItems_nil : SpellsItems [] [] [] :=
  ⟨nofun, fun _ _ _ _ below => below, buildsItems_nil, fun _ => by rw [itemsAt]⟩

theorem SpellsItems.cons (formed : Formed fields) (regular : ∀ field ∈ fields, Regular field.2)
    (spells : SpellsFields fields tokens members) (behind : SpellsItems documents others nodes) :
    SpellsItems (.record (named fields) :: documents)
      (.item :: .blockRecord :: (tokens ++ .blockEnd :: others))
      (.record .record members :: nodes) := by
  have lines (column : Nat) := textOf_itemLines column formed.nonempty regular documents
  constructor
  case permitted =>
    intro column c member
    have inside := spells.permitted (column + 2) c
    rw [textOf_fieldLines (column + 2) formed.nonempty regular] at inside
    simp only [lines, List.mem_append, List.mem_cons] at member
    rcases member with indentation | rfl | rfl | first | below
    · exact permitted_replicate column c indentation
    · decide
    · decide
    · exact inside (List.mem_append_right _ first)
    · exact behind.permitted column c below
  case below =>
    intro column columns text tail below
    have closed : Below (column + 2) ((column + 2) :: column :: columns)
        (textOf (itemLines column documents) ++ text) (.blockEnd :: (others ++ tail)) :=
      ((behind.below column columns text tail below).close
        (Nat.lt_add_of_pos_right Nat.two_pos)).mono (Nat.le_add_right ..)
    obtain ⟨visible, starts⟩ := spells.opens formed.nonempty (column + 2) (column :: columns) _ _
      (by simp) closed
    have dash : Visible ('-' :: ' ' :: (recordText (column + 2) (named fields) ++
        (textOf (itemLines column documents) ++ text))) := by
      rintro _ ⟨⟩
      decide
    refine ⟨column, _, Nat.le_refl column, by rw [lines]; simp, dash, ?_⟩
    simpa using Lexer.starts_item visible starts
  case builds => exact .cons spells.builds behind.builds
  case reads =>
    intro depth
    rw [itemsAt, spells.reads_record formed, behind.reads]
    rfl

theorem exists_spellsItems (formed : ∀ fields ∈ records, Formed fields)
    (regular : ∀ fields ∈ records, ∀ field ∈ fields, Regular field.2)
    (recovers : ∀ fields ∈ records, ∀ field ∈ fields, Recovers field.2) :
    ∃ tokens nodes,
      SpellsItems (records.map fun fields => .record (named fields)) tokens nodes := by
  induction records with
  | nil => exact ⟨[], [], spellsItems_nil⟩
  | cons fields records ih =>
    rw [List.forall_mem_cons] at formed regular recovers
    obtain ⟨tokens, members, spells⟩ :=
      exists_spellsFields formed.1.names regular.1 recovers.1
    obtain ⟨others, nodes, behind⟩ := ih formed.2 regular.2 recovers.2
    exact ⟨_, _, .cons formed.1 regular.1 spells behind⟩

/-- Items start on the line below the name of their field, in its column. -/
theorem recovers_list (nonempty : records ≠ []) (formed : ∀ fields ∈ records, Formed fields)
    (regular : ∀ fields ∈ records, ∀ field ∈ fields, Regular field.2)
    (recovers : ∀ fields ∈ records, ∀ field ∈ fields, Recovers field.2) :
    Recovers (.list (records.map fun fields => .record (named fields))) := by
  cases records with
  | nil => exact absurd rfl nonempty
  | cons fields records =>
    rw [List.forall_mem_cons] at formed regular recovers
    obtain ⟨tokens, members, spells⟩ :=
      exists_spellsFields formed.1.names regular.1 recovers.1
    obtain ⟨others, nodes, behind⟩ := exists_spellsItems formed.2 regular.2 recovers.2
    have items := behind.cons formed.1 regular.1 spells
    refine ⟨_, .list .list (.record .record members :: nodes), ?_, ?_, items.builds.list, ?_⟩
    · intro column c member
      rcases List.mem_cons.mp member with rfl | below
      · decide
      · exact items.permitted column c below
    · intro column columns text others below index line column' _
      exact (items.below column columns text others below).ended index line column'
    · intro depth
      rw [documentAt, items.reads]
      rfl

end Items

theorem Regular.recovers (regular : Regular document) : Recovers document := by
  induction regular with
  | text permitted oneLine => exact recovers_text permitted oneLine
  | record formed regular ih =>
    obtain ⟨tokens, members, spells⟩ := exists_spellsFields formed.names regular ih
    exact ⟨_, _, spells.record formed regular⟩
  | list nonempty formed regular ih => exact recovers_list nonempty formed regular ih

section Whole

variable {characters : List Char}

theorem unifyBreaks_eq (permitted : ∀ c ∈ characters, isPermitted c = true) :
    unifyBreaks characters = characters := by
  induction characters with
  | nil => rfl
  | cons c characters ih =>
    rw [List.forall_mem_cons] at permitted
    have here := permitted.1
    simp only [isPermitted, Bool.and_eq_true, decide_eq_true_eq, ne_eq] at here
    obtain ⟨⟨-, noReturn⟩, noNext⟩ := here
    rw [unifyBreaks, ih permitted.2]
    · simp [noReturn, noNext]
    · exact fun _ same _ => noReturn same

theorem withoutMark_eq (alone : StandsAlone characters) (rest : List Char) :
    withoutMark (characters ++ rest) = characters ++ rest := by
  cases characters with
  | nil => exact absurd rfl alone.nonempty
  | cons c characters =>
    have narrow := Lexer.narrow_of_standsAlone alone c List.mem_cons_self
    rw [List.cons_append, withoutMark]
    rintro _ ⟨⟩
    cases narrow

end Whole

theorem write_record (formed : Formed fields) (regular : ∀ field ∈ fields, Regular field.2) :
    (write (.record (named fields))).toList = recordText 0 (named fields) := by
  have lines := textOf_fieldLines 0 formed.nonempty regular
  rw [List.replicate_zero, List.nil_append] at lines
  rw [write, String.toList_ofList, ← lines]
  cases fields with
  | nil => exact absurd rfl formed.nonempty
  | cons field fields => rfl

/-- The text of a record begins with the name of its first field, so no mark stands in front. -/
theorem Formed.withoutMark_eq (formed : Formed fields) :
    withoutMark (recordText 0 (named fields)) = recordText 0 (named fields) := by
  cases fields with
  | nil => exact absurd rfl formed.nonempty
  | cons field fields =>
    have isName := formed.names field List.mem_cons_self
    have whole := recordText_append isName 0 field.2 (named fields) []
    rw [List.append_nil] at whole
    rw [named, List.map_cons, ← named, whole]
    exact Yaml.withoutMark_eq isName.alone _

theorem SpellsFields.tokens_eq (spells : SpellsFields fields tokens members)
    (formed : Formed fields)
    (permitted : ∀ c ∈ recordText 0 (named fields), isPermitted c = true) :
    Token.tokens (recordText 0 (named fields)) =
      .blockRecord :: (tokens ++ [.blockEnd, .textEnd]) := by
  obtain ⟨-, starts⟩ := spells.opens formed.nonempty 0 [] [] [.blockEnd, .textEnd] (by simp)
    Lexer.below_end
  rw [List.append_nil] at starts
  have resolved := starts 0 0 ((recordText 0 (named fields)).length + 1) (Nat.lt_succ_self _)
  rw [Token.tokens, formed.withoutMark_eq, unifyBreaks_eq permitted, Mark.tokens]
  exact congrArg Prod.fst resolved

theorem Formed.read_write (formed : Formed fields) (regular : ∀ field ∈ fields, Regular field.2) :
    read (write (.record (named fields))) = .ok (.record (named fields)) := by
  obtain ⟨tokens, members, spells⟩ := exists_spellsFields formed.names regular
    fun field member => (regular field member).recovers
  have permitted : ∀ c ∈ recordText 0 (named fields), isPermitted c = true := by
    have permitted := spells.permitted 0
    rwa [textOf_fieldLines 0 formed.nonempty regular] at permitted
  have allowed : (recordText 0 (named fields)).all isAllowed = true := by
    rw [List.all_eq_true]
    intro c member
    have here := permitted c member
    simp only [isPermitted, Bool.and_eq_true] at here
    exact here.1.1
  rw [read, write_record formed regular, allowed, spells.tokens_eq formed permitted,
    spells.builds.ofTokens_eq]
  simp only [Bool.not_true, Bool.false_eq_true, if_false, bind, Except.bind]
  rw [spells.reads_record formed]
  rfl

end Yaml
end Uncertainty

import Uncertainty.Proofs.Document.Json.Spelling
import Uncertainty.Proofs.Document.Order

/-!
Documents of texts, lists and records, written as JSON and read back. What is written falls into
the items that the reader makes of it, whatever stands behind it, and from these the reader builds
the same document.
-/
namespace Uncertainty.Json

/-- Documents of texts and lists, and of records whose names are strings in ascending order. -/
inductive Regular : Document → Prop where
  | text {text : Text} (unpaired : Unpaired text) : Regular (.text text)
  | list {documents : List Document} (members : ∀ document ∈ documents, Regular document) :
      Regular (.list documents)
  | record {fields : List (String × Document)}
      (ascending : Document.Ascending (fields.map Prod.fst))
      (members : ∀ field ∈ fields, Regular field.2) :
      Regular (.record (Document.named fields))

section Ordered

theorem orderedItems_eq {documents : List Document}
    (members : ∀ document ∈ documents, ordered document = .ok document) :
    orderedItems documents = .ok documents := by
  induction documents with
  | nil => rfl
  | cons document documents ih =>
    have first := members document List.mem_cons_self
    have others := ih fun document member => members document (List.mem_cons_of_mem _ member)
    rw [orderedItems, first, others]
    rfl

theorem orderedValues_named {fields : List (String × Document)}
    (members : ∀ field ∈ fields, ordered field.2 = .ok field.2) :
    orderedValues (Document.named fields) =
      (Document.named fields).map fun (name, value) => (name, .ok value) := by
  induction fields with
  | nil => rfl
  | cons field fields ih =>
    have first := members field List.mem_cons_self
    have others := ih fun field member => members field (List.mem_cons_of_mem _ member)
    simp only [Document.named, List.map_cons, orderedValues, first] at others ⊢
    rw [others]

theorem mapM_orderedField (fields : List (String × Document)) :
    ((Document.named fields).map fun (name, value) => (name, .ok value)).mapM orderedField =
      .ok (Document.named fields) := by
  induction fields with
  | nil => rfl
  | cons field fields ih =>
    simp only [Document.named, List.map_cons, List.mapM_cons] at ih ⊢
    rw [ih]
    rfl

theorem Regular.ordered_eq {document : Document} (regular : Regular document) :
    ordered document = .ok document := by
  induction regular with
  | text unpaired => rfl
  | list members ih =>
    rw [ordered, orderedItems_eq ih]
    rfl
  | record ascending members ih =>
    rename_i fields
    have rising : Scalar.Rising (((Document.named fields).map fun (name, value) =>
        (name, (.ok value : Except Unwritable Document))).map Prod.fst) := by
      have rising := ascending.rising
      simpa [Function.comp_def] using rising
    have sorted := Scalar.sortByName_eq rising
    rw [ordered, orderedValues_named ih, sorted]
    simp only [Except.mapError, bind, Except.bind, mapM_orderedField fields]
    rfl

end Ordered

section Items

variable {characters others : List Char} {items items' : List Item} {c : Char}

/-- Characters fall into these items, whatever stands behind them. -/
def Itemizes (characters : List Char) (items : List Item) : Prop :=
  ∀ fuel rest, (characters ++ rest).length ≤ fuel → ∃ fuel', rest.length ≤ fuel' ∧
    itemsOf fuel (characters ++ rest) = items ++ itemsOf fuel' rest

theorem Itemizes.append (front : Itemizes characters items) (back : Itemizes others items') :
    Itemizes (characters ++ others) (items ++ items') := by
  intro fuel rest enough
  rw [List.append_assoc] at enough ⊢
  obtain ⟨fuel', enough', first⟩ := front fuel (others ++ rest) enough
  obtain ⟨fuel'', enough'', second⟩ := back fuel' rest enough'
  refine ⟨fuel'', enough'', ?_⟩
  rw [first, second, List.append_assoc]

theorem itemizes_of_round (round : ∀ fuel rest, (c :: others ++ rest).length ≤ fuel + 1 →
      itemsOf (fuel + 1) (c :: others ++ rest) = items ++ itemsOf fuel rest) :
    Itemizes (c :: others) items := by
  intro fuel rest enough
  cases fuel with
  | zero => cases enough
  | succ fuel =>
    refine ⟨fuel, ?_, round fuel rest enough⟩
    simp only [List.cons_append, List.length_cons, List.length_append] at enough
    omega

theorem itemizes_mark (mark : isMark c) (visible : isBlank c = false) :
    Itemizes [c] [.mark c] := by
  refine itemizes_of_round fun fuel rest _ => ?_
  simp [itemsOf, mark, visible]

theorem itemizes_blank (blank : isBlank c) : Itemizes [c] [] := by
  refine itemizes_of_round fun fuel rest _ => ?_
  simp [itemsOf, blank]

theorem itemizes_text {text : Text} (unpaired : Unpaired text) :
    Itemizes (writeText text) [.scalar (.text text)] :=
  itemizes_of_round fun _ _ enough => itemsOf_writeText unpaired enough

theorem Itemizes.itemsOf_eq (itemizes : Itemizes characters items) :
    itemsOf characters.length characters = items := by
  obtain ⟨fuel, -, all⟩ := itemizes characters.length [] (by simp)
  simpa [itemsOf] using all

end Items

section Values

variable {items others : List Item} {document : Document} {documents : List Document}
variable {fields : List (Scalar × Document)} {name : Text}

/-- Items in front of others make a document. -/
def Builds (items : List Item) (document : Document) : Prop :=
  ∀ fuel rest, items.length ≤ fuel → value fuel (items ++ rest) = .ok (document, rest)

/-- Items in front of a closing bracket make the members of a list. -/
def BuildsMembers (items : List Item) (documents : List Document) : Prop :=
  ∀ fuel rest, items.length < fuel →
    listItems fuel (items ++ .mark ']' :: rest) = .ok (documents, rest)

/-- Items in front of a closing brace make the fields of a record. -/
def BuildsFields (items : List Item) (fields : List (Scalar × Document)) : Prop :=
  ∀ fuel rest, items.length < fuel →
    recordFields fuel (items ++ .mark '\x7d' :: rest) = .ok (fields, rest)

theorem Builds.single (builds : Builds items document) : BuildsMembers items [document] := by
  intro fuel rest enough
  cases fuel with
  | zero => cases enough
  | succ fuel =>
    have first := builds fuel (.mark ']' :: rest) (Nat.le_of_lt_succ enough)
    rw [listItems, first]
    rfl

theorem Builds.cons (builds : Builds items document) (behind : BuildsMembers others documents) :
    BuildsMembers (items ++ .mark ',' :: others) (document :: documents) := by
  intro fuel rest enough
  simp only [List.length_append, List.length_cons] at enough
  cases fuel with
  | zero => cases enough
  | succ fuel =>
    have first := builds fuel (.mark ',' :: (others ++ .mark ']' :: rest)) (by omega)
    have second := behind fuel rest (by omega)
    rw [List.append_assoc, List.cons_append, listItems, first]
    simp only [bind, Except.bind, second]
    rfl

theorem Builds.singleField (builds : Builds items document) :
    BuildsFields (.scalar (.text name) :: .mark ':' :: items) [(.text name, document)] := by
  intro fuel rest enough
  simp only [List.length_cons] at enough
  cases fuel with
  | zero => cases enough
  | succ fuel =>
    have first := builds fuel (.mark '\x7d' :: rest) (by omega)
    rw [List.cons_append, List.cons_append, recordFields, first]
    rfl

theorem Builds.consField (builds : Builds items document) (behind : BuildsFields others fields) :
    BuildsFields (.scalar (.text name) :: .mark ':' :: (items ++ .mark ',' :: others))
      ((.text name, document) :: fields) := by
  intro fuel rest enough
  simp only [List.length_append, List.length_cons] at enough
  cases fuel with
  | zero => cases enough
  | succ fuel =>
    have first := builds fuel (.mark ',' :: (others ++ .mark '\x7d' :: rest)) (by omega)
    have second := behind fuel rest (by omega)
    rw [List.cons_append, List.cons_append, List.append_assoc, List.cons_append, recordFields,
      first]
    simp only [bind, Except.bind, second]
    rfl

theorem value_close (fuel : Nat) (rest : List Item) :
    value fuel (.mark ']' :: rest) = .error .malformed := by
  cases fuel <;> simp [value]

theorem BuildsMembers.not_closed (builds : BuildsMembers items documents) (rest tail : List Item) :
    items ++ .mark ']' :: rest ≠ .mark ']' :: tail := by
  intro same
  have read := builds (items.length + 1) rest (Nat.lt_succ_self _)
  rw [same, listItems, value_close] at read
  cases read

theorem recordFields_close (fuel : Nat) (rest : List Item) :
    recordFields fuel (.mark '\x7d' :: rest) = .error .malformed := by
  cases fuel <;> simp [recordFields]

theorem BuildsFields.not_closed (builds : BuildsFields items fields) (rest tail : List Item) :
    items ++ .mark '\x7d' :: rest ≠ .mark '\x7d' :: tail := by
  intro same
  have read := builds (items.length + 1) rest (Nat.lt_succ_self _)
  rw [same, recordFields_close] at read
  cases read

theorem BuildsMembers.list (builds : BuildsMembers items documents) :
    Builds (.mark '[' :: (items ++ [.mark ']'])) (.list documents) := by
  intro fuel rest enough
  simp only [List.length_append, List.length_cons] at enough
  cases fuel with
  | zero => cases enough
  | succ fuel =>
    have inside := builds fuel rest (by simp at enough; omega)
    rw [List.cons_append, List.append_assoc, List.cons_append, List.nil_append, value, inside]
    · rfl
    · exact fun tail => builds.not_closed rest tail

theorem BuildsFields.record (builds : BuildsFields items fields) :
    Builds (.mark '\x7b' :: (items ++ [.mark '\x7d'])) (.ofFields fields) := by
  intro fuel rest enough
  simp only [List.length_append, List.length_cons] at enough
  cases fuel with
  | zero => cases enough
  | succ fuel =>
    have inside := builds fuel rest (by simp at enough; omega)
    rw [List.cons_append, List.append_assoc, List.cons_append, List.nil_append, value, inside]
    · rfl
    · exact fun tail => builds.not_closed rest tail

end Values

/-- What is written for a document falls into items that make this document. -/
def Recovers (document : Document) : Prop :=
  ∃ items, Itemizes (write document) items ∧ Builds items document

theorem recovers_text {text : Text} (unpaired : Unpaired text) : Recovers (.text text) := by
  refine ⟨[.scalar (.text text)], itemizes_text unpaired, fun fuel rest enough => ?_⟩
  cases fuel with
  | zero => cases enough
  | succ fuel => rfl

theorem itemizes_separator : Itemizes [',', ' '] [.mark ','] :=
  (itemizes_mark rfl rfl).append (itemizes_blank rfl)

theorem recovers_members {document : Document} {documents : List Document}
    (members : ∀ member ∈ document :: documents, Recovers member) :
    ∃ items, Itemizes (writeItems (document :: documents)) items ∧
      BuildsMembers items (document :: documents) := by
  induction documents generalizing document with
  | nil =>
    obtain ⟨items, itemizes, builds⟩ := members document List.mem_cons_self
    exact ⟨items, itemizes, builds.single⟩
  | cons next documents ih =>
    obtain ⟨items, itemizes, builds⟩ := members document List.mem_cons_self
    obtain ⟨others, itemizes', builds'⟩ :=
      ih fun member among => members member (List.mem_cons_of_mem _ among)
    refine ⟨items ++ .mark ',' :: others, ?_, builds.cons builds'⟩
    exact itemizes.append (itemizes_separator.append itemizes')

theorem recovers_list {documents : List Document}
    (members : ∀ document ∈ documents, Recovers document) : Recovers (.list documents) := by
  have opening : Itemizes ['['] [.mark '['] := itemizes_mark rfl rfl
  have closing : Itemizes [']'] [.mark ']'] := itemizes_mark rfl rfl
  cases documents with
  | nil =>
    refine ⟨[.mark '[', .mark ']'], opening.append closing, fun fuel rest enough => ?_⟩
    cases fuel with
    | zero => cases enough
    | succ fuel => rfl
  | cons document documents =>
    obtain ⟨items, itemizes, builds⟩ := recovers_members members
    exact ⟨_, opening.append (itemizes.append closing), builds.list⟩

theorem itemizes_field {document : Document} {items : List Item} (name : String)
    (itemizes : Itemizes (write document) items) :
    Itemizes (writeName (.text name) ++ ':' :: ' ' :: write document)
      (.scalar (.text name) :: .mark ':' :: items) := by
  have colon : Itemizes [':', ' '] [.mark ':'] :=
    (itemizes_mark rfl rfl).append (itemizes_blank rfl)
  exact (itemizes_text (unpaired_ofString name)).append (colon.append itemizes)

theorem recovers_fields {field : String × Document} {fields : List (String × Document)}
    (members : ∀ member ∈ field :: fields, Recovers member.2) :
    ∃ items, Itemizes (writeFields (Document.named (field :: fields))) items ∧
      BuildsFields items (Document.named (field :: fields)) := by
  induction fields generalizing field with
  | nil =>
    obtain ⟨items, itemizes, builds⟩ := members field List.mem_cons_self
    exact ⟨_, itemizes_field field.1 itemizes, builds.singleField⟩
  | cons next fields ih =>
    obtain ⟨items, itemizes, builds⟩ := members field List.mem_cons_self
    obtain ⟨others, itemizes', builds'⟩ :=
      ih fun member among => members member (List.mem_cons_of_mem _ among)
    have written := (itemizes_field field.1 itemizes).append (itemizes_separator.append itemizes')
    exact ⟨_, written, builds.consField builds'⟩

theorem recovers_record {fields : List (String × Document)}
    (ascending : Document.Ascending (fields.map Prod.fst))
    (members : ∀ field ∈ fields, Recovers field.2) :
    Recovers (.record (Document.named fields)) := by
  have opening : Itemizes ['\x7b'] [.mark '\x7b'] := itemizes_mark rfl rfl
  have closing : Itemizes ['\x7d'] [.mark '\x7d'] := itemizes_mark rfl rfl
  cases fields with
  | nil =>
    refine ⟨[.mark '\x7b', .mark '\x7d'], opening.append closing, fun fuel rest enough => ?_⟩
    cases fuel with
    | zero => cases enough
    | succ fuel => rfl
  | cons field fields =>
    obtain ⟨items, itemizes, builds⟩ := recovers_fields members
    have record := builds.record
    rw [Document.ofFields, ascending.collect_named] at record
    exact ⟨_, opening.append (itemizes.append closing), record⟩

theorem Regular.recovers {document : Document} (regular : Regular document) :
    Recovers document := by
  induction regular with
  | text unpaired => exact recovers_text unpaired
  | list members ih => exact recovers_list ih
  | record ascending members ih => exact recovers_record ascending ih

theorem Regular.exists_text {document : Document} (regular : Regular document) :
    ∃ written, Json.text document = .ok written ∧ Json.read written = .ok document := by
  obtain ⟨items, itemizes, builds⟩ := regular.recovers
  refine ⟨String.ofList (write document), ?_, ?_⟩
  · rw [Json.text, regular.ordered_eq]
    rfl
  · have all := itemizes.itemsOf_eq
    have made := builds (items.length + 1) [] (Nat.le_succ _)
    rw [List.append_nil] at made
    rw [Json.read, String.toList_ofList, String.length_ofList, all]
    simp only [made, bind, Except.bind]
    rfl

end Uncertainty.Json

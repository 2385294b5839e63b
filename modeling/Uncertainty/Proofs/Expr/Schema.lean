import Uncertainty.Proofs.Expr.Serialization

/-!
Which documents are trees. A schema of its own tells the documents that the reader accepts, and the
faults of all others in the order in which a reader comes to them. A document that is accepted has a
normal form, with what is left out filled in and all that says nothing dropped, and it is in this
form that its tree is written again.
-/
namespace Uncertainty

namespace Text

theorem eq_ofString_of_toString? {text : Text} {s : String} (read : text.toString? = some s) :
    text = ofString s := by
  obtain ⟨points⟩ := text
  obtain ⟨characters, all, rfl⟩ := Option.map_eq_some_iff.mp read
  have spelled : points = characters.map CodePoint.character := by
    clear read
    induction points generalizing characters with
    | nil =>
      cases all
      rfl
    | cons point points ih =>
      rw [List.mapM_cons] at all
      obtain ⟨c, isCharacter, all⟩ := Option.bind_eq_some_iff.mp all
      obtain ⟨rest, others, same⟩ := Option.bind_eq_some_iff.mp all
      cases same
      cases point with
      | character d =>
        cases isCharacter
        rw [List.map_cons, ih rest others]
      | half => cases isCharacter
  rw [spelled, ofString, String.toList_ofList]

end Text

namespace Document

variable {fields : List (Scalar × Document)} {name : String} {value item : Document}

/-- The value of the first field of a name. -/
def field? (fields : List (Scalar × Document)) (name : String) : Option Document :=
  fields.lookup (Scalar.text name)

/-- The operands that a record lists, none if it does not say. -/
def children (fields : List (Scalar × Document)) : List Document :=
  match field? fields "children" with
  | some (.list items) => items
  | _ => []

/-- The value of a field is of the form that the readers of trees and tokens expect of its name. -/
def HasForm (name : Scalar) (value : Document) : Prop :=
  (name = Scalar.text "children" → ∃ items, value = .list items) ∧
  (name = Scalar.text "token" ∨ name = Scalar.text "operator" → ∃ fields, value = .record fields) ∧
  (name = Scalar.text "kind" ∨ name = Scalar.text "integral" ∨ name = Scalar.text "fractional" →
    ∃ s, value = .text s)

/-- Documents of scalars, lists and records where, at every level, the fields that trees and tokens
have are of the right form if they are there. -/
inductive Shaped : Document → Prop where
  | scalar (s : Scalar) : Shaped (.scalar s)
  | list {items : List Document} (members : ∀ item ∈ items, Shaped item) : Shaped (.list items)
  | record {fields : List (Scalar × Document)} (members : ∀ field ∈ fields, Shaped field.2)
      (forms : ∀ field ∈ fields, HasForm field.1 field.2) : Shaped (.record fields)

theorem mem_of_field? (found : field? fields name = some value) :
    (Scalar.text name, value) ∈ fields := by
  obtain ⟨before, after, rfl, -⟩ := List.lookup_eq_some_iff.mp found
  exact List.mem_append_right _ List.mem_cons_self

theorem sizeOf_children (member : item ∈ children fields) :
    sizeOf item < sizeOf (Document.record fields) := by
  unfold children at member
  split at member
  case h_1 items listed =>
    have inside := List.sizeOf_lt_of_mem member
    have field := List.sizeOf_lt_of_mem (mem_of_field? listed)
    simp only [Prod.mk.sizeOf_spec, list.sizeOf_spec, record.sizeOf_spec] at field ⊢
    omega
  case h_2 => cases member

/-- Induction over the operands that records list, for what holds of all other documents alike. -/
@[elab_as_elim] theorem byChildren {motive : Document → Prop}
    (record : ∀ fields, (∀ item ∈ children fields, motive item) → motive (.record fields))
    (other : ∀ document, (∀ fields, document ≠ .record fields) → motive document)
    (document : Document) : motive document :=
  match document with
  | .record fields => record fields fun item _ => byChildren record other item
  | .scalar _ | .list _ | .pair .. | .set _ | .again _ => other _ nofun
termination_by sizeOf document
decreasing_by exact sizeOf_children (by assumption)

namespace Shaped

theorem of_field? (shaped : Shaped (.record fields)) (found : field? fields name = some value) :
    Shaped value ∧ HasForm (Scalar.text name) value := by
  cases shaped with
  | record members forms =>
    have member := mem_of_field? found
    exact ⟨members _ member, forms _ member⟩

theorem entered_eq (shaped : Shaped value) : value.entered = value := by
  cases shaped <;> rfl

theorem of_mem_children (shaped : Shaped (.record fields)) (member : item ∈ children fields) :
    Shaped item := by
  unfold children at member
  split at member
  case h_1 items listed =>
    cases (shaped.of_field? listed).1 with
    | list members => exact members item member
  case h_2 => cases member

/-- What is asked for in a shaped record is what stands there. -/
theorem require_eq (shaped : Shaped (.record fields)) (name : String) :
    (Document.record fields).require name =
      (field? fields name).elim (.error (.missing name)) .ok := by
  rw [require]
  cases found : field? fields name with
  | none =>
    rw [field?] at found
    rw [found]
    rfl
  | some value =>
    have entered := (shaped.of_field? found).1.entered_eq
    rw [field?] at found
    rw [found]
    exact congrArg Except.ok entered

theorem named {fields : List (String × Document)} (members : ∀ field ∈ fields, Shaped field.2)
    (forms : ∀ field ∈ fields, HasForm (Scalar.text field.1) field.2) :
    Shaped (.record (Document.named fields)) := by
  refine .record ?_ ?_
  · rintro _ member
    obtain ⟨field, among, rfl⟩ := List.mem_map.mp member
    exact members field among
  · rintro _ member
    obtain ⟨field, among, rfl⟩ := List.mem_map.mp member
    exact forms field among

theorem tail {field : Scalar × Document} (shaped : Shaped (.record (field :: fields))) :
    Shaped (.record fields) := by
  cases shaped with
  | record members forms =>
    exact .record (fun other member => members other (List.mem_cons_of_mem _ member))
      fun other member => forms other (List.mem_cons_of_mem _ member)

theorem typeField_eq (shaped : Shaped (.record fields)) :
    typeField fields = (field? fields "type").getD .null := by
  rw [typeField]
  cases found : field? fields "type" with
  | none =>
    rw [field?] at found
    rw [found]
    rfl
  | some value =>
    have entered := (shaped.of_field? found).1.entered_eq
    rw [field?] at found
    rw [found]
    exact entered

end Shaped

theorem string?_eq_some_iff {s : String} : value.string? = some s ↔ value = .text s := by
  constructor
  · intro read
    unfold string? at read
    split at read
    · exact congrArg text (Text.eq_ofString_of_toString? read)
    · cases read
  · rintro rfl
    exact Text.toString?_ofString s

/-- The name of a record's type is the string in its field. -/
theorem Shaped.typeName?_eq_some_iff (shaped : Shaped (.record fields)) :
    typeName? fields = some name ↔ field? fields "type" = some (.text name) := by
  rw [typeName?, shaped.typeField_eq, string?_eq_some_iff]
  cases field? fields "type" <;> simp

/-- How reading data and writing what has been read go with the faults of the data and with their
normal form: data without faults are read, they are written in the normal form, and it is read as
they are; of other data the first fault is reported. -/
inductive Settles {δ α : Type} (read : δ → Except SchemaError α) (write : α → δ) (data normal : δ)
    (faults : List SchemaError) : Prop where
  | accepted (a : α) (faultless : faults = []) (reads : read data = .ok a)
      (written : write a = normal) (again : read normal = .ok a)
  | refused {error : SchemaError} (first : faults.head? = some error)
      (reads : read data = .error error)

end Document

theorem Symbol.ofText?_eq_some_iff {text : String} {symbol : Symbol} :
    ofText? text = some symbol ↔ text = symbol.text := by
  constructor
  · intro found
    have holds := List.find?_some found
    exact (of_decide_eq_true holds).symm
  · rintro rfl
    exact ofText?_text symbol

open Document (field? children Shaped Settles)

namespace Token.Schema

/-- A token is valid by its kind, which is that of a symbol or that of numbers. Only the latter need
digits, and only those in front of the point. -/
def Valid (fields : List (Scalar × Document)) : Prop :=
  (∃ symbol : Symbol, field? fields "kind" = some (.text symbol.text)) ∨
  field? fields "kind" = some (.text "number") ∧ (field? fields "integral").isSome

/-- A token with the fields of its kind alone; a fraction that is left out is empty. -/
def normal (fields : List (Scalar × Document)) : Document :=
  if field? fields "kind" = some (.text "number") then
    .record [("fractional", (field? fields "fractional").getD (.text "")),
      ("integral", (field? fields "integral").getD .null), ("kind", .text "number")]
  else .record [("kind", (field? fields "kind").getD .null)]

/-- What is wrong with a token: its kind, or that a number has no digits. -/
def faults (fields : List (Scalar × Document)) : List SchemaError :=
  match field? fields "kind" with
  | none => [.missing "kind"]
  | some kind =>
    if kind = .text "number" then
      if (field? fields "integral").isSome then [] else [.missing "integral"]
    else if ∃ symbol ∈ Symbol.all, kind = .text symbol.text then []
    else [.unknownKind kind.display]

/-- The faults of the token in a field. -/
def faultsIn (fields : List (Scalar × Document)) (name : String) : List SchemaError :=
  match field? fields name with
  | some (.record token) => faults token
  | _ => [.missing name]

/-- The normal form of the token in a field. -/
def normalIn (fields : List (Scalar × Document)) (name : String) : Document :=
  match field? fields name with
  | some (.record token) => normal token
  | _ => .null

variable {fields : List (Scalar × Document)} {name : String}

theorem valid_iff_faultless : Valid fields ↔ faults fields = [] := by
  unfold Valid faults
  cases field? fields "kind" with
  | none => simp
  | some kind =>
    by_cases isNumber : kind = .text "number"
    · have noSymbol (symbol : Symbol) : "number" ≠ symbol.text := (text_ne_number symbol).symm
      simp [isNumber, noSymbol, ← Option.isSome_iff_ne_none]
    · simp [isNumber, Symbol.mem_all]

theorem toDocument_numberOf (integral fractional : Text) :
    toDocument ⟨numberOf (.text integral) (.text fractional), none⟩ =
      .record [("fractional", .text fractional), ("integral", .text integral),
        ("kind", .text "number")] := by
  unfold numberOf
  split
  case h_1 i f first second =>
    rw [Document.string?_eq_some_iff] at first second
    rw [first, second]
    rfl
  case h_2 => rfl

/-- Digits in front of the point are all that a number can lack. -/
theorem settles_number (shaped : Shaped (.record fields))
    (isNumber : field? fields "kind" = some (.text "number")) :
    Settles ofDocument toDocument (.record fields) (normal fields) (faults fields) := by
  have read : ofDocument (.record fields) = ((Document.record fields).require "integral").map
      fun integral => ⟨numberOf integral ((field? fields "fractional").getD (.text "")), none⟩ := by
    have fraction : ((Document.record fields).require "fractional").toOption =
        field? fields "fractional" := by
      rw [shaped.require_eq]
      cases field? fields "fractional" <;> rfl
    rw [ofDocument, shaped.require_eq "kind", isNumber, fraction]
    cases (Document.record fields).require "integral" <;> rfl
  rw [shaped.require_eq] at read
  cases hasDigits : field? fields "integral" with
  | none =>
    refine .refused ?_ (by rw [read, hasDigits]; rfl)
    simp [faults, isNumber, hasDigits]
  | some digits =>
    obtain ⟨integral, rfl⟩ := (shaped.of_field? hasDigits).2.2.2 (.inr (.inl rfl))
    obtain ⟨fractional, hasFraction⟩ :
        ∃ f : Text, (field? fields "fractional").getD (.text "") = .text f := by
      cases hasFraction : field? fields "fractional" with
      | none => exact ⟨_, rfl⟩
      | some fraction => exact (shaped.of_field? hasFraction).2.2.2 (.inr (.inr rfl))
    have whole : normal fields = .record [("fractional", .text fractional),
        ("integral", .text integral), ("kind", .text "number")] := by
      rw [normal, if_pos isNumber, hasDigits, hasFraction]
      rfl
    rw [hasDigits, hasFraction] at read
    refine .accepted _ ?_ read ?_ ?_
    · simp [faults, isNumber, hasDigits]
    · rw [whole, toDocument_numberOf]
    · rw [whole, ofDocument_number, Document.entered_text, Document.entered_text]

/-- The kind alone decides on any other token. -/
theorem settles_symbol (shaped : Shaped (.record fields)) {kind : Text}
    (hasKind : field? fields "kind" = some (.text kind))
    (noNumber : Document.text kind ≠ .text "number") :
    Settles ofDocument toDocument (.record fields) (normal fields) (faults fields) := by
  have noName : (Document.text kind).string? ≠ some "number" :=
    fun named => noNumber (Document.string?_eq_some_iff.mp named)
  have read : ofDocument (.record fields) =
      ((Document.text kind).string?.bind Symbol.ofText?).elim
        (.error (.unknownKind (Document.text kind).display)) fun s => .ok ⟨.symbol s, none⟩ := by
    rw [ofDocument, shaped.require_eq, hasKind]
    simp only [Option.elim, bind, Except.bind, if_neg noName]
    cases (Document.text kind).string?.bind Symbol.ofText? <;> rfl
  have whole : normal fields = .record [("kind", .text kind)] := by
    rw [normal, hasKind, if_neg (by simpa using noNumber)]
    rfl
  have isSymbol (symbol : Symbol) : (Document.text kind).string?.bind Symbol.ofText? = some symbol ↔
      Document.text kind = .text symbol.text := by
    simp only [Option.bind_eq_some_iff, Symbol.ofText?_eq_some_iff, exists_eq_right,
      Document.string?_eq_some_iff]
  cases found : (Document.text kind).string?.bind Symbol.ofText? with
  | some symbol =>
    rw [found] at read
    rw [isSymbol] at found
    refine .accepted _ ?_ read ?_ ?_
    · rw [faults, hasKind, found]
      simp [text_ne_number, Symbol.mem_all]
    · rw [whole, found]
      rfl
    · rw [whole, found, ofDocument_symbol]
  | none =>
    rw [found] at read
    have noSymbol : ¬ ∃ symbol ∈ Symbol.all, Document.text kind = .text symbol.text := by
      rintro ⟨symbol, -, same⟩
      rw [← isSymbol, found] at same
      cases same
    refine .refused ?_ read
    rw [faults, hasKind]
    simp only [if_neg noNumber, if_neg noSymbol, List.head?_singleton]

theorem settles (shaped : Shaped (.record fields)) :
    Settles ofDocument toDocument (.record fields) (normal fields) (faults fields) := by
  cases hasKind : field? fields "kind" with
  | none =>
    refine .refused (by rw [faults, hasKind, List.head?_singleton]) ?_
    rw [ofDocument, shaped.require_eq, hasKind]
    rfl
  | some kind =>
    obtain ⟨name, rfl⟩ := (shaped.of_field? hasKind).2.2.2 (.inl rfl)
    by_cases isNumber : Document.text name = .text "number"
    · rw [isNumber] at hasKind
      exact settles_number shaped hasKind
    · exact settles_symbol shaped hasKind isNumber

section In

variable {token : List (Scalar × Document)}

theorem faultsIn_eq (present : field? fields name = some (.record token)) :
    faultsIn fields name = faults token := by
  rw [faultsIn, present]

theorem normalIn_eq (present : field? fields name = some (.record token)) :
    normalIn fields name = normal token := by
  rw [normalIn, present]

theorem faultsIn_eq_missing (absent : field? fields name = none) :
    faultsIn fields name = [.missing name] := by
  rw [faultsIn, absent]

end In

theorem faultsIn_eq_nil_iff : faultsIn fields name = [] ↔
    ∃ token, field? fields name = some (.record token) ∧ Valid token := by
  unfold faultsIn
  split
  case h_1 token found => simp [found, valid_iff_faultless]
  case h_2 noRecord =>
    refine ⟨nofun, ?_⟩
    rintro ⟨token, found, -⟩
    exact absurd found (noRecord token)

/-- In a shaped record the place of a token is empty or holds a record. -/
theorem eq_none_or_token (shaped : Shaped (.record fields))
    (isPlace : name = "token" ∨ name = "operator") : field? fields name = none ∨
      ∃ token, field? fields name = some (.record token) ∧ Shaped (.record token) := by
  cases found : field? fields name with
  | none => exact .inl rfl
  | some value =>
    obtain ⟨valueShaped, -, form, -⟩ := shaped.of_field? found
    obtain ⟨token, rfl⟩ := form (by rcases isPlace with rfl | rfl <;> simp)
    exact .inr ⟨token, rfl, valueShaped⟩

theorem entered_normal (fields : List (Scalar × Document)) :
    (normal fields).entered = normal fields := by
  unfold normal
  split <;> rfl

end Token.Schema

namespace Expr.Schema

/-- A tree is an atom with a valid token or a group with a valid operator and acceptable members. -/
inductive Acceptable : Document → Prop where
  | atom {fields token : List (Scalar × Document)}
      (type : field? fields "type" = some (.text "atom"))
      (present : field? fields "token" = some (.record token))
      (valid : Token.Schema.Valid token) : Acceptable (.record fields)
  | group {fields operator : List (Scalar × Document)}
      (type : field? fields "type" = some (.text "group"))
      (present : field? fields "operator" = some (.record operator))
      (valid : Token.Schema.Valid operator)
      (members : ∀ item ∈ children fields, Acceptable item) : Acceptable (.record fields)

/-- A tree with the fields of its type alone; operands that are left out are none. -/
def normal : Document → Document
  | .record fields =>
    if field? fields "type" = some (.text "atom") then
      .record [("token", Token.Schema.normalIn fields "token"), ("type", .text "atom")]
    else
      .record [("children", .list ((children fields).attach.map fun item => normal item.1)),
        ("operator", Token.Schema.normalIn fields "operator"), ("type", .text "group")]
  | document => document
termination_by document => sizeOf document
decreasing_by exact Document.sizeOf_children item.2

/-- All that is wrong with a tree, from its type over its operator to its operands in order. -/
def faults : Document → List SchemaError
  | .record fields =>
    if field? fields "type" = some (.text "atom") then Token.Schema.faultsIn fields "token"
    else if field? fields "type" = some (.text "group") then
      Token.Schema.faultsIn fields "operator" ++
        (children fields).attach.flatMap fun item => faults item.1
    else [.unknownType "expression" ((field? fields "type").getD .null).displayBare]
  | document => [.notRecord document.kind]
termination_by document => sizeOf document
decreasing_by exact Document.sizeOf_children item.2

variable {fields : List (Scalar × Document)} {items : List Document} {document : Document}

theorem normal_atom (isAtom : field? fields "type" = some (.text "atom")) :
    normal (.record fields) =
      .record [("token", Token.Schema.normalIn fields "token"), ("type", .text "atom")] := by
  rw [normal, if_pos isAtom]

theorem faults_atom (isAtom : field? fields "type" = some (.text "atom")) :
    faults (.record fields) = Token.Schema.faultsIn fields "token" := by
  rw [faults, if_pos isAtom]

theorem ne_atom (isGroup : field? fields "type" = some (.text "group")) :
    field? fields "type" ≠ some (.text "atom") := by
  rw [isGroup]
  simp

theorem normal_group (isGroup : field? fields "type" = some (.text "group")) :
    normal (.record fields) = .record [("children", .list ((children fields).map normal)),
      ("operator", Token.Schema.normalIn fields "operator"), ("type", .text "group")] := by
  rw [normal, if_neg (ne_atom isGroup), List.attach_map_val]

theorem faults_group (isGroup : field? fields "type" = some (.text "group")) :
    faults (.record fields) =
      Token.Schema.faultsIn fields "operator" ++ (children fields).flatMap faults := by
  rw [faults, if_neg (ne_atom isGroup), if_pos isGroup, List.flatMap_subtype (fun _ _ => rfl),
    List.unattach_attach]

theorem faults_other (noAtom : field? fields "type" ≠ some (.text "atom"))
    (noGroup : field? fields "type" ≠ some (.text "group")) : faults (.record fields) =
      [.unknownType "expression" ((field? fields "type").getD .null).displayBare] := by
  rw [faults, if_neg noAtom, if_neg noGroup]

/-- The schema accepts what it finds no fault with. -/
theorem acceptable_iff_faultless (document : Document) :
    Acceptable document ↔ faults document = [] := by
  induction document using Document.byChildren with
  | record fields ih =>
    constructor
    · intro acceptable
      cases acceptable with
      | atom type present valid =>
        rw [faults_atom type, Token.Schema.faultsIn_eq_nil_iff]
        exact ⟨_, present, valid⟩
      | group type present valid members =>
        rw [faults_group type, List.append_eq_nil_iff, Token.Schema.faultsIn_eq_nil_iff,
          List.flatMap_eq_nil_iff]
        exact ⟨⟨_, present, valid⟩, fun item member => (ih item member).mp (members item member)⟩
    · intro faultless
      by_cases isAtom : field? fields "type" = some (.text "atom")
      · rw [faults_atom isAtom, Token.Schema.faultsIn_eq_nil_iff] at faultless
        obtain ⟨token, present, valid⟩ := faultless
        exact .atom isAtom present valid
      · by_cases isGroup : field? fields "type" = some (.text "group")
        · rw [faults_group isGroup, List.append_eq_nil_iff, Token.Schema.faultsIn_eq_nil_iff,
            List.flatMap_eq_nil_iff] at faultless
          obtain ⟨⟨operator, present, valid⟩, members⟩ := faultless
          exact .group isGroup present valid fun item member =>
            (ih item member).mpr (members item member)
        · rw [faults_other isAtom isGroup] at faultless
          cases faultless
  | other document noRecord =>
    refine ⟨fun acceptable => ?_, fun faultless => ?_⟩
    · cases acceptable <;> exact absurd rfl (noRecord _)
    · rw [faults] at faultless
      · cases faultless
      · exact fun fields same => noRecord fields same

theorem settles_members
    (members : ∀ item ∈ items, Settles ofDocument toDocument item (normal item) (faults item)) :
    Settles ofDocuments toDocuments items (items.map normal) (items.flatMap faults) := by
  induction items with
  | nil => exact .accepted [] rfl rfl rfl rfl
  | cons item items ih =>
    rw [List.forall_mem_cons] at members
    rw [List.flatMap_cons, List.map_cons]
    cases members.1 with
    | refused first reads =>
      refine .refused (by rw [List.head?_append, first, Option.some_or]) ?_
      rw [ofDocuments, reads]
      rfl
    | accepted tree faultless reads written again =>
      rw [faultless, List.nil_append]
      cases ih members.2 with
      | refused first reads' =>
        refine .refused first ?_
        rw [ofDocuments, reads, reads']
        rfl
      | accepted trees faultless' reads' written' again' =>
        refine .accepted (tree :: trees) faultless' ?_ ?_ ?_
        · rw [ofDocuments, reads, reads']
          rfl
        · rw [toDocuments, written, written']
        · rw [ofDocuments, again, again']
          rfl

/-- The reader of operands takes the field that the schema takes. -/
theorem ofField_eq (shaped : Shaped (.record fields)) :
    ofField fields = ofDocuments (children fields) := by
  induction fields with
  | nil => rfl
  | cons field fields ih =>
    obtain ⟨name, value⟩ := field
    rw [ofField]
    by_cases isChildren : name = Scalar.text "children"
    · have first : field? ((name, value) :: fields) "children" = some value := by
        simp [field?, isChildren]
      obtain ⟨items, rfl⟩ := (shaped.of_field? first).2.1 rfl
      rw [if_pos isChildren, ofChildren, children, first]
    · have other : (Scalar.text "children" == name) = false :=
        beq_eq_false_iff_ne.mpr (Ne.symm isChildren)
      have behind : children ((name, value) :: fields) = children fields := by
        rw [children, children, field?, field?, List.lookup_cons, other]
      rw [if_neg isChildren, ih shaped.tail, behind]

theorem settles_atom (shaped : Shaped (.record fields))
    (isAtom : field? fields "type" = some (.text "atom")) :
    Settles ofDocument toDocument (.record fields) (normal (.record fields))
      (faults (.record fields)) := by
  have read : ofDocument (.record fields) = ((Document.record fields).require "token").bind
      fun token => (Token.ofDocument token).map .atom := by
    simp only [ofDocument, shaped.typeName?_eq_some_iff.mpr isAtom]
    rfl
  rw [shaped.require_eq] at read
  rw [normal_atom isAtom, faults_atom isAtom]
  rcases Token.Schema.eq_none_or_token shaped (.inl rfl) with absent | ⟨token, present, tokenShaped⟩
  · rw [absent] at read
    exact .refused (by rw [Token.Schema.faultsIn_eq_missing absent, List.head?_singleton]) read
  · rw [present, Option.elim, Except.bind] at read
    rw [Token.Schema.normalIn_eq present, Token.Schema.faultsIn_eq present]
    cases Token.Schema.settles tokenShaped with
    | refused first reads =>
      refine .refused first ?_
      rw [read, reads]
      rfl
    | accepted token faultless reads written again =>
      refine .accepted (.atom token) faultless ?_ ?_ ?_
      · rw [read, reads]
        rfl
      · rw [toDocument, written]
      · rw [ofDocument_atom, Token.Schema.entered_normal, again]
        rfl

theorem settles_group (shaped : Shaped (.record fields))
    (isGroup : field? fields "type" = some (.text "group"))
    (members : ∀ item ∈ children fields,
      Settles ofDocument toDocument item (normal item) (faults item)) :
    Settles ofDocument toDocument (.record fields) (normal (.record fields))
      (faults (.record fields)) := by
  have read : ofDocument (.record fields) = ((Document.record fields).require "operator").bind
      fun operator => (Token.ofDocument operator).bind fun operator =>
        (ofDocuments (children fields)).map fun operands => .group operator operands := by
    simp only [ofDocument, shaped.typeName?_eq_some_iff.mpr isGroup, ofField_eq shaped]
    rfl
  rw [shaped.require_eq] at read
  rw [normal_group isGroup, faults_group isGroup]
  rcases Token.Schema.eq_none_or_token shaped (.inr rfl) with absent | ⟨token, present, tokenShaped⟩
  · rw [absent] at read
    refine .refused ?_ read
    rw [Token.Schema.faultsIn_eq_missing absent, List.head?_append, List.head?_singleton,
      Option.some_or]
  · rw [present, Option.elim, Except.bind] at read
    rw [Token.Schema.normalIn_eq present, Token.Schema.faultsIn_eq present]
    cases Token.Schema.settles tokenShaped with
    | refused first reads =>
      refine .refused (by rw [List.head?_append, first, Option.some_or]) ?_
      rw [read, reads]
      rfl
    | accepted operator faultless reads written again =>
      rw [faultless, List.nil_append]
      rw [reads, Except.bind] at read
      cases settles_members members with
      | refused first reads' =>
        refine .refused first ?_
        rw [read, reads']
        rfl
      | accepted operands faultless' reads' written' again' =>
        refine .accepted (.group operator operands) faultless' ?_ ?_ ?_
        · rw [read, reads']
          rfl
        · rw [toDocument, written, written']
        · rw [ofDocument_group, Token.Schema.entered_normal, again, again']
          rfl

/-- By the operands that records list; what is no record is no tree. -/
theorem settles (shaped : Shaped document) :
    Settles ofDocument toDocument document (normal document) (faults document) := by
  induction document using Document.byChildren with
  | record fields ih =>
    by_cases isAtom : field? fields "type" = some (.text "atom")
    · exact settles_atom shaped isAtom
    · by_cases isGroup : field? fields "type" = some (.text "group")
      · exact settles_group shaped isGroup fun item member =>
          ih item member (shaped.of_mem_children member)
      · refine .refused (by rw [faults_other isAtom isGroup, List.head?_singleton]) ?_
        rw [← shaped.typeName?_eq_some_iff] at isAtom isGroup
        rw [ofDocument, ← shaped.typeField_eq]
        split
        · contradiction
        · contradiction
        · rfl
  | other document noRecord =>
    have first : (faults document).head? = some (.notRecord document.kind) := by
      rw [faults, List.head?_singleton]
      exact fun fields same => noRecord fields same
    refine .refused first ?_
    rw [ofDocument]
    exact fun fields same => noRecord fields same

end Expr.Schema

namespace Expr

variable {document : Document} {tree : Expr}

/-- A document is read as a tree if and only if it is acceptable. The tree is written as the normal
form of the document, which is read as the same tree; and of a document that is not acceptable the
first fault is reported. -/
theorem ofDocument_follows_schema (shaped : Shaped document) :
    ((∃ tree, ofDocument document = .ok tree) ↔ Schema.Acceptable document) ∧
    (∀ tree, ofDocument document = .ok tree → tree.toDocument = Schema.normal document ∧
      ofDocument (Schema.normal document) = .ok tree) ∧
    ∀ error, ofDocument document = .error error ↔
      (Schema.faults document).head? = some error := by
  rw [Schema.acceptable_iff_faultless]
  cases Schema.settles shaped with
  | accepted tree faultless reads written again =>
    rw [reads, faultless]
    refine ⟨⟨fun _ => rfl, fun _ => ⟨tree, rfl⟩⟩, fun tree' same => ?_, fun error => by simp⟩
    cases same
    exact ⟨written, again⟩
  | refused first reads =>
    rw [reads]
    refine ⟨⟨nofun, fun faultless => ?_⟩, nofun, fun error => ?_⟩
    · rw [faultless] at first
      cases first
    · rw [first, Except.error.injEq, Option.some.injEq]

/-- The second of three operands has a type that there is none of; the third is no record, which is
not looked at any more. -/
theorem first_fault_of_operands :
    let named (fields : List (String × Document)) := Document.record (Document.named fields)
    let one := named [("type", .text "atom"), ("token", named [("integral", .text "01"),
      ("kind", .text "number"), ("note", .null)])]
    let document := named [("type", .text "group"),
      ("children", .list [one, named [("type", .text "leaf")], .integer 5]),
      ("operator", named [("kind", .text "-"), ("integral", .text "")])]
    let error := SchemaError.unknownType "expression" "leaf"
    document.Shaped ∧ ofDocument document = .error error ∧
      (Schema.faults document).head? = some error ∧ ¬ Schema.Acceptable document := by
  intro named one document error
  have leaf : (named [("type", .text "leaf")]).Shaped :=
    .named (by simpa using .scalar _) (by simp [Document.HasForm])
  have digits : (named [("integral", .text "01"), ("kind", .text "number"),
      ("note", .null)]).Shaped := .named (by simp [Shaped.scalar]) (by simp [Document.HasForm])
  have first : one.Shaped :=
    .named (by simp [Shaped.scalar, digits]) (by simp [Document.HasForm, named])
  have minus : (named [("kind", .text "-"), ("integral", .text "")]).Shaped :=
    .named (by simp [Shaped.scalar]) (by simp [Document.HasForm])
  have operands : (Document.list [one, named [("type", .text "leaf")], .integer 5]).Shaped :=
    .list (by simp [Shaped.scalar, first, leaf])
  have shaped : document.Shaped :=
    .named (by simp [Shaped.scalar, operands, minus]) (by simp [Document.HasForm, named])
  have refused : ofDocument document = .error error := rfl
  obtain ⟨accepts, -, reports⟩ := ofDocument_follows_schema shaped
  refine ⟨shaped, refused, (reports error).mp refused, fun acceptable => ?_⟩
  obtain ⟨tree, read⟩ := accepts.mpr acceptable
  rw [refused] at read
  cases read

end Expr
end Uncertainty

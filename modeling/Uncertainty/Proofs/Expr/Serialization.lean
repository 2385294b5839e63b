import Uncertainty.Expr.Schema
import Uncertainty.Proofs.Calculation.Offsets
import Uncertainty.Proofs.Document.Json.RoundTrip

/-!
Trees as documents and as JSON. A tree whose digits are texts is lost in neither form, whatever its
tokens are and however many operands its operators have; only the offsets are left out.
-/
namespace Uncertainty

/-- A number with texts in the place of its digits, or a symbol. Two strings are always a literal;
of other texts one holds a half of a character. The two halves in a row stand nowhere, because
`Json.writeText` writes halves as their numbers, and the numbers of both in a row are read as the
character. Of a writer that leaves halves as they are this need not be asked. -/
inductive Lexeme.Textual : Lexeme → Prop where
  | number (literal : Literal) : Textual (.number literal)
  | symbol (symbol : Symbol) : Textual (.symbol symbol)
  | halves {integral fractional : Text}
      (broken : integral.toString? = none ∨ fractional.toString? = none)
      (unpaired : Json.Unpaired integral ∧ Json.Unpaired fractional) :
      Textual (.data (.text integral) (.text fractional))

namespace Document

@[simp] theorem lookup_cons_name (name other : String) (value : Document)
    (fields : List (Scalar × Document)) :
    ((Scalar.text other, value) :: fields).lookup (Scalar.text name) =
      if name = other then some value else fields.lookup (Scalar.text name) := by
  by_cases same : name = other
  · simp [same]
  · simp [List.lookup_cons, beq_eq_false_iff_ne.mpr, same]

@[simp] theorem entered_text (s : Text) : (text s).entered = text s := rfl

end Document

namespace Token

variable {token : Token}

theorem regular_number {integral fractional : Text} (first : Json.Unpaired integral)
    (second : Json.Unpaired fractional) :
    Json.Regular (.record (Document.named [("fractional", .text fractional),
      ("integral", .text integral), ("kind", .text "number")])) := by
  have ascending : Document.Ascending ["fractional", "integral", "kind"] := by decide
  refine .record ascending ?_
  simp only [List.forall_mem_cons]
  exact ⟨.text second, .text first, .text (Json.unpaired_ofString "number"), nofun⟩

theorem regular_symbol (text : String) :
    Json.Regular (.record (Document.named [("kind", .text text)])) := by
  refine .record (List.pairwise_singleton _ _) ?_
  simp only [List.forall_mem_cons]
  exact ⟨.text (Json.unpaired_ofString text), nofun⟩

theorem regular_toDocument (textual : token.lexeme.Textual) : Json.Regular token.toDocument := by
  obtain ⟨lexeme, offset⟩ := token
  cases textual with
  | number literal => exact regular_number (Json.unpaired_ofString _) (Json.unpaired_ofString _)
  | symbol symbol => exact regular_symbol symbol.text
  | halves broken unpaired => exact regular_number unpaired.1 unpaired.2

theorem text_ne_number (symbol : Symbol) : symbol.text ≠ "number" := by
  cases symbol <;> decide

open Document in
theorem ofDocument_number (integral fractional : Document) :
    ofDocument (.record [("fractional", fractional), ("integral", integral),
      ("kind", .text "number")]) = .ok ⟨numberOf integral.entered fractional.entered, none⟩ := by
  simp [ofDocument, require, entered, string?, bind, Except.bind, pure, Except.pure,
    Except.toOption]

open Document in
theorem ofDocument_symbol (symbol : Symbol) :
    ofDocument (.record [("kind", .text symbol.text)]) = .ok ⟨.symbol symbol, none⟩ := by
  simp [ofDocument, require, string?, bind, Except.bind, pure, Except.pure, text_ne_number,
    Symbol.ofText?_text]

theorem numberOf_strings (literal : Literal) :
    numberOf (.text literal.integral) (.text literal.fractional) = .number literal := by
  simp [numberOf, Document.string?]

theorem numberOf_halves {integral fractional : Text}
    (broken : integral.toString? = none ∨ fractional.toString? = none) :
    numberOf (.text integral) (.text fractional) = .data (.text integral) (.text fractional) := by
  simp only [numberOf, Document.string?]
  rcases broken with none | none
  · rw [none]
  · rw [none]
    cases integral.toString? <;> rfl

theorem ofDocument_toDocument (textual : token.lexeme.Textual) :
    ofDocument token.toDocument = .ok token.bare := by
  obtain ⟨lexeme, offset⟩ := token
  cases textual with
  | number literal =>
    rw [toDocument, ofDocument_number, Document.entered_text, Document.entered_text,
      numberOf_strings]
    rfl
  | symbol symbol => exact ofDocument_symbol symbol
  | halves broken unpaired =>
    rw [toDocument, ofDocument_number, Document.entered_text, Document.entered_text,
      numberOf_halves broken]
    rfl

theorem entered_toDocument (token : Token) : token.toDocument.entered = token.toDocument := by
  rw [toDocument]
  cases token.lexeme <;> rfl

end Token

namespace Expr

variable {tree : Expr} {trees : List Expr}

/-- Trees with texts in the place of all digits. -/
inductive Textual : Expr → Prop where
  | atom {token : Token} (textual : token.lexeme.Textual) : Textual (.atom token)
  | group {operator : Token} {operands : List Expr} (textual : operator.lexeme.Textual)
      (members : ∀ operand ∈ operands, Textual operand) : Textual (.group operator operands)

theorem regular_toDocuments (members : ∀ tree ∈ trees, Json.Regular tree.toDocument) :
    ∀ document ∈ toDocuments trees, Json.Regular document := by
  induction trees with
  | nil => exact nofun
  | cons tree trees ih =>
    rw [List.forall_mem_cons] at members
    rw [toDocuments, List.forall_mem_cons]
    exact ⟨members.1, ih members.2⟩

theorem regular_atom {token : Document} (regular : Json.Regular token) :
    Json.Regular (.record (Document.named [("token", token), ("type", .text "atom")])) := by
  have ascending : Document.Ascending ["token", "type"] := by decide
  refine .record ascending ?_
  simp only [List.forall_mem_cons]
  exact ⟨regular, .text (Json.unpaired_ofString "atom"), nofun⟩

theorem regular_group {operator : Document} {operands : List Document}
    (regular : Json.Regular operator) (members : ∀ operand ∈ operands, Json.Regular operand) :
    Json.Regular (.record (Document.named [("children", .list operands), ("operator", operator),
      ("type", .text "group")])) := by
  have ascending : Document.Ascending ["children", "operator", "type"] := by decide
  refine .record ascending ?_
  simp only [List.forall_mem_cons]
  exact ⟨.list members, regular, .text (Json.unpaired_ofString "group"), nofun⟩

theorem Textual.regular (textual : tree.Textual) : Json.Regular tree.toDocument := by
  induction textual with
  | atom textual => exact regular_atom (Token.regular_toDocument textual)
  | group textual members ih =>
    exact regular_group (Token.regular_toDocument textual) (regular_toDocuments ih)

theorem ofDocuments_toDocuments
    (members : ∀ tree ∈ trees, ofDocument tree.toDocument = .ok tree.bare) :
    ofDocuments (toDocuments trees) = .ok (bareAll trees) := by
  induction trees with
  | nil => rfl
  | cons tree trees ih =>
    rw [List.forall_mem_cons] at members
    rw [toDocuments, ofDocuments, members.1, ih members.2]
    rfl

open Document in
theorem ofDocument_atom (token : Document) :
    ofDocument (.record [("token", token), ("type", .text "atom")]) =
      (Token.ofDocument token.entered).map .atom := by
  have type : typeName? [("token", token), ("type", .text "atom")] = some "atom" := by
    simp [typeName?, typeField, string?]
  simp only [ofDocument, type, require, lookup_cons_name]
  rfl

open Document in
theorem ofDocument_group (operator : Document) (operands : List Document) :
    ofDocument (.record [("children", .list operands), ("operator", operator),
      ("type", .text "group")]) = do
        return .group (← Token.ofDocument operator.entered) (← ofDocuments operands) := by
  have type : typeName? [("children", .list operands), ("operator", operator),
      ("type", .text "group")] = some "group" := by
    simp [typeName?, typeField, string?]
  have listed : ofField [("children", .list operands), ("operator", operator),
      ("type", .text "group")] = ofDocuments operands := by
    rw [ofField, if_pos rfl, ofChildren]
  simp only [ofDocument, type, require, lookup_cons_name, listed]
  rfl

theorem Textual.ofDocument_eq (textual : tree.Textual) :
    ofDocument tree.toDocument = .ok tree.bare := by
  induction textual with
  | atom textual =>
    have token := Token.ofDocument_toDocument textual
    rw [toDocument, ofDocument_atom, Token.entered_toDocument, token]
    rfl
  | group textual members ih =>
    have operator := Token.ofDocument_toDocument textual
    have operands := ofDocuments_toDocuments ih
    rw [toDocument, ofDocument_group, Token.entered_toDocument, operator, operands]
    rfl

mutual

theorem toDocument_bare (tree : Expr) : tree.bare.toDocument = tree.toDocument := by
  cases tree with
  | atom token => rfl
  | group operator operands =>
    rw [bare, toDocument, toDocument, toDocuments_bareAll operands]
    rfl

theorem toDocuments_bareAll (trees : List Expr) :
    toDocuments (bareAll trees) = toDocuments trees := by
  cases trees with
  | nil => rfl
  | cons tree trees =>
    rw [bareAll, toDocuments, toDocuments, toDocument_bare tree, toDocuments_bareAll trees]

end

/-- Nothing but offsets is lost in the document of a tree or in its JSON, so that two trees have one
JSON text only if they are the same. -/
theorem lossless_of_textual (textual : tree.Textual) :
    (∃ read, ofDocument tree.toDocument = .ok read ∧ read.same tree) ∧
    (∃ text document read, Json.text tree.toDocument = .ok text ∧ Json.read text = .ok document ∧
      ofDocument document = .ok read ∧ read.same tree) ∧
    ∀ other : Expr, other.Textual →
      (Json.text tree.toDocument = Json.text other.toDocument ↔ tree.same other) := by
  have read := textual.ofDocument_eq
  obtain ⟨text, written, parsed⟩ := textual.regular.exists_text
  refine ⟨⟨_, read, same_bare tree⟩, ⟨_, _, _, written, parsed, read, same_bare tree⟩, ?_⟩
  intro other textual'
  rw [same_iff_bare]
  constructor
  · intro sameText
    obtain ⟨text', written', parsed'⟩ := textual'.regular.exists_text
    have texts : text = text' := by
      rw [written, written'] at sameText
      exact Except.ok.inj sameText
    have documents : tree.toDocument = other.toDocument := by
      rw [texts, parsed'] at parsed
      exact (Except.ok.inj parsed).symm
    have trees : (.ok tree.bare : Except SchemaError Expr) = .ok other.bare := by
      rw [← read, documents, textual'.ofDocument_eq]
    exact Except.ok.inj trees
  · intro sameTree
    rw [← toDocument_bare tree, sameTree, toDocument_bare]

/-- A quote, a backslash, a control and the first half of a character in the digits, operators that
are none, and no operands. -/
theorem exists_json_of_escapes :
    ∃ tree, tree = group ⟨.symbol .endOfInput, none⟩
        [atom ⟨.number ⟨"\"\\\x07", ""⟩, some 3⟩, group ⟨.number ⟨"", "é"⟩, none⟩ [],
          atom ⟨.data (.text ⟨[.half 0, .character 'a']⟩) (.text ""), none⟩] ∧
      tree.Textual ∧
      ∃ text document read, Json.text tree.toDocument = .ok text ∧ Json.read text = .ok document ∧
        ofDocument document = .ok read ∧ read.same tree := by
  refine ⟨_, rfl, ?textual, (lossless_of_textual ?textual).2.1⟩
  have halves : Json.Unpaired ⟨[.half 0, .character 'a']⟩ := by decide
  have texts := And.intro halves (Json.unpaired_ofString "")
  refine .group (.symbol _) ?_
  simp only [List.forall_mem_cons]
  exact ⟨.atom (.number _), .group (.number _) nofun, .atom (.halves (.inl rfl) texts), nofun⟩

end Expr
end Uncertainty

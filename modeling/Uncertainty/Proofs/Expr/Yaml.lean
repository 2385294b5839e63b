import Uncertainty.Proofs.Document.Yaml.Quoting
import Uncertainty.Proofs.Expr.Serialization
import Uncertainty.Proofs.Expr.WellFormed

/-!
Trees as YAML. The tree of any text is read back from what is written for it, because no digits are
written as a number and no symbol as a sign.
-/
namespace Uncertainty

namespace Yaml

/-- The names of the fields in the documents of trees. -/
def fieldNames : List String :=
  ["children", "fractional", "integral", "kind", "operator", "token", "type"]

theorem isName_of_mem {name : String} (member : name ∈ fieldNames) : IsName name := by
  have checked : ∀ name ∈ fieldNames, isPlain name.toList = true ∧ name.toList.head? ≠ some '.' ∧
      name.toList.length ≤ 1024 ∧ name.toList.all isPermitted = true := by
    decide +kernel
  obtain ⟨plain, noPoint, short, permitted⟩ := checked name member
  exact ⟨isPlain_iff.mp plain, noPoint, short, List.all_eq_true.mp permitted⟩

theorem formed_of_names {fields : List (String × Document)} (names : List String)
    (same : fields.map Prod.fst = names)
    (known : names ≠ [] ∧ Document.Ascending names ∧ ∀ name ∈ names, name ∈ fieldNames) :
    Formed fields := by
  obtain ⟨nonempty, ascending, known⟩ := known
  rw [← same] at nonempty ascending known
  refine ⟨fun empty => nonempty (by rw [empty]; rfl), ascending, fun field member => ?_⟩
  exact isName_of_mem (known field.1 (List.mem_map_of_mem member))

theorem regular_of_all {s : String} (permitted : s.toList.all isPermitted = true)
    (oneLine : s.toList.all (!isBreak ·) = true) : Regular (.text s) := by
  rw [List.all_eq_true] at permitted oneLine
  exact .text permitted fun c member => by simpa using oneLine c member

theorem regular_digits {digits : String} (inside : ∀ c ∈ digits.toList, c.isDigit) :
    Regular (.text digits) := by
  refine .text (fun c member => ?_) fun c member => ?_
  · exact (ordinary_of_digit (inside c member)).2.2
  · exact (ordinary_of_noDelimiter (ordinary_of_digit (inside c member)).2.1).2.1

theorem regular_symbol (symbol : Symbol) : Regular (.text symbol.text) := by
  cases symbol <;> exact regular_of_all (by decide) (by decide)

end Yaml

open Document (named)
open Yaml (Formed Regular formed_of_names)

theorem Token.regular_of_spelled {token : Token} (spelled : token.lexeme.Spelled) :
    Regular token.toDocument := by
  have number : Regular (.text "number") := Yaml.regular_of_all (by decide) (by decide)
  obtain ⟨lexeme, offset⟩ := token
  cases lexeme with
  | number literal =>
    have formed : Formed [("fractional", .text literal.fractional),
        ("integral", .text literal.integral), ("kind", .text "number")] :=
      formed_of_names ["fractional", "integral", "kind"] rfl (by decide)
    refine .record formed ?_
    simp only [List.forall_mem_cons]
    exact ⟨Yaml.regular_digits spelled.fractional, Yaml.regular_digits spelled.integral, number,
      List.forall_mem_nil _⟩
  | symbol symbol =>
    have formed : Formed [("kind", .text symbol.text)] :=
      formed_of_names ["kind"] rfl (by decide)
    refine .record formed ?_
    simp only [List.forall_mem_cons]
    exact ⟨Yaml.regular_symbol symbol, List.forall_mem_nil _⟩
  | data => cases spelled

namespace Expr

variable {tree : Expr} {operator : Token} {operands : List Expr}
variable {limit : Int} {text : String}

/-- The fields of the document of a tree. -/
def fields : Expr → List (String × Document)
  | atom token => [("token", token.toDocument), ("type", .text "atom")]
  | group operator operands =>
    [("children", .list (toDocuments operands)), ("operator", operator.toDocument),
      ("type", .text "group")]

theorem toDocument_eq_fields (tree : Expr) : tree.toDocument = .record (named tree.fields) := by
  cases tree <;> rfl

theorem toDocuments_eq_map (trees : List Expr) :
    toDocuments trees = (trees.map fields).map fun fields => .record (named fields) := by
  induction trees with
  | nil => rfl
  | cons tree trees ih =>
    rw [toDocuments, ih, toDocument_eq_fields]
    rfl

theorem formed_fields (tree : Expr) : Formed tree.fields := by
  cases tree with
  | atom => exact formed_of_names ["token", "type"] rfl (by decide)
  | group => exact formed_of_names ["children", "operator", "type"] rfl (by decide)

theorem regular_fields_group (spelled : operator.lexeme.Spelled) (nonempty : operands ≠ [])
    (members : ∀ operand ∈ operands, ∀ field ∈ operand.fields, Regular field.2) :
    ∀ field ∈ (group operator operands).fields, Regular field.2 := by
  have regular : Regular (.list (toDocuments operands)) := by
    rw [toDocuments_eq_map]
    refine .list (by simpa using nonempty) ?_ ?_
    · simpa using fun operand _ => formed_fields operand
    · simpa using members
  have kind : Regular (.text "group") := Yaml.regular_of_all (by decide) (by decide)
  rw [fields]
  simp only [List.forall_mem_cons]
  exact ⟨regular, operator.regular_of_spelled spelled, kind, List.forall_mem_nil _⟩

/-- Induction over the operators with their operands, for what holds of all that can be spelled. -/
@[elab_as_elim] theorem WellFormed.byToken {motive : Expr → Prop}
    (atom : ∀ token : Token, token.lexeme.Spelled → motive (.atom token))
    (group : ∀ (operator : Token) (operands : List Expr), operator.lexeme.Spelled → operands ≠ [] →
      (∀ operand ∈ operands, motive operand) → motive (.group operator operands))
    (formed : tree.WellFormed) : motive tree := by
  induction formed with
  | constant isConstant =>
    refine atom _ ?_
    rcases isConstant with same | same <;> rw [same] <;> trivial
  | number same isDecimal =>
    refine atom _ ?_
    rw [same]
    exact isDecimal
  | negation isMinus _ ih =>
    refine group _ _ ?_ (List.cons_ne_nil _ _) (by simpa using ih)
    rw [isMinus]
    trivial
  | infixed isOperator _ _ ihLeft ihRight =>
    obtain ⟨symbol, -, isSymbol, -⟩ := Operator.exists_symbol isOperator
    refine group _ _ ?_ (List.cons_ne_nil _ _) (by simpa using ⟨ihLeft, ihRight⟩)
    rw [isSymbol]
    trivial

theorem WellFormed.regular_fields (formed : tree.WellFormed) :
    ∀ field ∈ tree.fields, Regular field.2 := by
  refine formed.byToken (fun token spelled => ?_) fun _ _ => regular_fields_group
  have kind : Regular (.text "atom") := Yaml.regular_of_all (by decide) (by decide)
  rw [fields]
  simp only [List.forall_mem_cons]
  exact ⟨token.regular_of_spelled spelled, kind, List.forall_mem_nil _⟩

theorem WellFormed.textual (formed : tree.WellFormed) : tree.Textual := by
  have textual {lexeme : Lexeme} (spelled : lexeme.Spelled) : lexeme.Textual := by
    cases lexeme with
    | number literal => exact .number literal
    | symbol symbol => exact .symbol symbol
    | data => cases spelled
  refine formed.byToken (fun token spelled => .atom (textual spelled)) ?_
  exact fun operator operands spelled _ => .group (textual spelled)

/-- The tree of a text is read back from its YAML. In it digits are quoted if there are none or they
would be read as an integer, and of the symbols the dash and the star. -/
theorem yaml_lossless_of_ofText (read : ofText limit text = .ok tree) :
    Yaml.read (Yaml.write tree.toDocument) = .ok tree.toDocument ∧
    (∃ tree', ofDocument tree.toDocument = .ok tree' ∧ tree'.same tree) ∧
    (∀ digits : String, (∀ c ∈ digits.toList, c.isDigit) →
      Yaml.writeText digits = (if digits = "" ∨ Yaml.Tag.ofPlain digits.toList = .integer
        then Yaml.quoteText digits.toList else digits.toList) ∧
      (Yaml.Tag.ofPlain digits.toList = .integer ↔ Yaml.WritesInteger digits.toList)) ∧
    ∀ symbol : Symbol, Yaml.writeText symbol.text =
      if symbol = .minus ∨ symbol = .star then Yaml.quoteText symbol.text.toList
      else symbol.text.toList := by
  have formed := wellFormed_of_ofText read
  have recovered : Yaml.read (Yaml.write tree.toDocument) = .ok tree.toDocument := by
    rw [toDocument_eq_fields]
    exact tree.formed_fields.read_write formed.regular_fields
  refine ⟨recovered, ⟨_, formed.textual.ofDocument_eq, same_bare tree⟩, ?_, Yaml.writeText_symbol⟩
  exact fun digits inside =>
    ⟨Yaml.writeText_digits inside, Yaml.Tag.ofPlain_eq_integer_iff inside⟩

/-- Octal and decimal digits stand in quotes, digits that are neither do not, and no digits at all
and the two signs do. -/
theorem yaml_lossless_of_padded_digits :
    ∃ tree, ofText 10 "-007*08.80" = .ok tree ∧
      Yaml.read (Yaml.write tree.toDocument) = .ok tree.toDocument ∧
      (∃ tree', ofDocument tree.toDocument = .ok tree' ∧ tree'.same tree) ∧
      ["007", "", "08", "80", "-", "*"].map (fun s => String.ofList (Yaml.writeText s)) =
        ["'007'", "''", "08", "'80'", "'-'", "'*'"] := by
  have parses : (ofText 10 "-007*08.80").toBool = true := by decide +kernel
  cases read : ofText 10 "-007*08.80" with
  | error =>
    rw [read] at parses
    cases parses
  | ok tree =>
    obtain ⟨recovered, same, -⟩ := yaml_lossless_of_ofText read
    exact ⟨tree, rfl, recovered, same, by decide +kernel⟩

end Expr
end Uncertainty

import Uncertainty.Document.Yaml.Node.Parser

/-!
The nodes of tokens in block style: scalars, records that columns open and close, and lists in the
fields of records. No names are given to nodes, so that one reading is enough.
-/
namespace Uncertainty.Yaml

open Node Reading

variable {α β : Type} {reading : Reading α} {next : α → Reading β} {a : α} {b : β}
variable {front middle rest tokens others items : List Token} {token : Token}
variable {name value item : Node} {nodes : List Node} {members : List (Node × Node)}
variable {fuel : Nat} {inBlock inField : Bool}

/-- A reading takes some tokens off the front, changes nothing else and gives a result. -/
def Takes (reading : Reading α) (front rest : List Token) (a : α) : Prop :=
  ∀ input, input.tokens = front → reading input = .ok (a, { input with tokens := rest })

section Takes

theorem takes_pure (a : α) (rest : List Token) : Takes (pure a) rest rest a := by
  rintro input rfl
  rfl

theorem bind_eq {input between output : Input} (first : reading input = .ok (a, between))
    (second : next a between = .ok (b, output)) : (reading >>= next) input = .ok (b, output) := by
  change (reading input >>= fun (a, input) => next a input) = _
  rw [first]
  exact second

theorem Takes.bind (first : Takes reading front middle a) (second : Takes (next a) middle rest b) :
    Takes (reading >>= next) front rest b := by
  intro input same
  exact bind_eq (first input same) (second { input with tokens := middle } rfl)

theorem takes_next? (rest : List Token) : Takes next? rest rest rest.head? := by
  rintro input rfl
  rfl

theorem takes_skip (token : Token) (rest : List Token) : Takes skip (token :: rest) rest () := by
  intro input same
  change Except.ok ((), { input with tokens := input.tokens.drop 1 }) = _
  rw [same]
  rfl

theorem takes_isAt (tokens rest : List Token) :
    Takes (isAt tokens) rest rest (rest.head?.any tokens.contains) :=
  (takes_next? rest).bind (takes_pure _ rest)

theorem takes_accept (token : Token) (rest : List Token) :
    Takes (accept token) (token :: rest) rest true := by
  have found : (token :: rest).head?.any [token].contains = true := by simp
  refine (takes_isAt [token] (token :: rest)).bind ?_
  rw [if_pos found]
  exact (takes_skip token rest).bind (takes_pure true rest)

theorem takes_accept_other (other : rest.head? ≠ some token) :
    Takes (accept token) rest rest false := by
  have absent : ¬ rest.head?.any [token].contains = true := by
    cases rest with
    | nil => simp
    | cons next rest => simpa using other
  refine (takes_isAt [token] rest).bind ?_
  rw [if_neg absent]
  exact takes_pure false rest

theorem takes_expect (token : Token) (rest : List Token) :
    Takes (expect token) (token :: rest) rest () :=
  (takes_accept token rest).bind (takes_pure () rest)

end Takes

section Nodes

/-- A token that starts a node without a name or a tag in front of it. -/
def Token.isBare : Token → Bool
  | .scalar .. | .blockRecord | .item => true
  | _ => false

theorem takes_properties (bare : token.isBare) (rest : List Token) :
    Takes Properties.read (token :: rest) (token :: rest) {} := by
  rintro ⟨tokens⟩ rfl
  cases token with
  | scalar | blockRecord | item => rfl
  | _ => cases bare

theorem takes_node (bare : token.isBare)
    (inside : Takes (content fuel inBlock inField {}) (token :: front) rest item) :
    Takes (node (fuel + 1) inBlock inField) (token :: front) rest item := by
  rw [node]
  refine (takes_next? _).bind ?_
  cases token with
  | scalar | blockRecord | item =>
    exact (takes_properties bare front).bind
      ((takes_pure () _).bind (inside.bind (takes_pure item rest)))
  | _ => cases bare

theorem takes_scalar (isPlain : Bool) (text : Text) (rest : List Token) (fuel : Nat)
    (inBlock inField : Bool) :
    Takes (node (fuel + 2) inBlock inField) (.scalar isPlain text :: rest) rest
      (.scalar (Properties.tagOf {} isPlain text) text) := by
  refine takes_node rfl ?_
  rw [content]
  refine (takes_next? _).bind ?_
  cases inField <;> exact (takes_skip _ rest).bind (takes_pure _ rest)

theorem takes_record (inside : Takes (fields fuel) front (.blockEnd :: rest) members)
    (inField : Bool) :
    Takes (node (fuel + 2) true inField) (.blockRecord :: front) rest
      (.record .record members) := by
  refine takes_node rfl ?_
  rw [content]
  refine (takes_next? _).bind ?_
  cases inField <;>
    exact (takes_skip _ _).bind (inside.bind ((takes_expect _ rest).bind (takes_pure _ rest)))

theorem takes_list (inside : Takes (Node.items fuel true) (.item :: front) rest nodes) :
    Takes (node (fuel + 2) true true) (.item :: front) rest (.list .list nodes) := by
  refine takes_node rfl ?_
  rw [content]
  exact (takes_next? _).bind (inside.bind (takes_pure _ rest))

theorem takes_nodeUnless (other : ∀ token ∈ front.head?, token ∉ tokens)
    (inside : Takes (node fuel inBlock inField) front rest item) :
    Takes (nodeUnless (fuel + 1) tokens inBlock inField) front rest item := by
  have absent : ¬ front.head?.any tokens.contains = true := by
    cases front with
    | nil => simp
    | cons next front => simpa using other next rfl
  rw [nodeUnless]
  refine (takes_isAt tokens front).bind ?_
  rw [if_neg absent]
  exact inside

/-- Some tokens make a node as the value of a field. Behind them no item may follow, which would
belong to a list among them. -/
structure BuildsValue (front : List Token) (value : Node) : Prop where
  bare : ∃ token more, front = token :: more ∧ token.isBare
  takes : ∀ fuel rest, 4 * front.length + 3 ≤ fuel → rest.head? ≠ some .item →
    Takes (node fuel true true) (front ++ rest) rest value

/-- Some tokens make the fields of a record that ends behind them. -/
structure BuildsFields (front : List Token) (members : List (Node × Node)) : Prop where
  named : ∀ token ∈ front.head?, token = .name
  takes : ∀ fuel rest, 4 * front.length + 1 ≤ fuel →
    Takes (fields fuel) (front ++ .blockEnd :: rest) (.blockEnd :: rest) members

/-- Some tokens make the items of a list in a field. -/
def BuildsItems (front : List Token) (nodes : List Node) : Prop :=
  ∀ fuel rest, 4 * front.length + 1 ≤ fuel → rest.head? ≠ some .item →
    Takes (Node.items fuel true) (front ++ rest) rest nodes

theorem buildsValue_scalar (isPlain : Bool) (text : Text) :
    BuildsValue [.scalar isPlain text] (.scalar (Properties.tagOf {} isPlain text) text) := by
  refine ⟨⟨_, [], rfl, rfl⟩, fun fuel rest enough _ => ?_⟩
  obtain ⟨fuel, rfl⟩ := Nat.exists_eq_add_of_le' (Nat.le_of_add_left_le enough : 2 ≤ fuel)
  exact takes_scalar isPlain text rest fuel true true

theorem buildsFields_nil : BuildsFields [] [] := by
  refine ⟨nofun, fun fuel rest enough => ?_⟩
  cases fuel with
  | zero => cases enough
  | succ fuel =>
    rw [fields]
    exact (takes_accept_other (by simp)).bind (takes_pure [] _)

theorem BuildsValue.valueUnless (builds : BuildsValue front value)
    (enough : 4 * front.length + 3 ≤ fuel) (noItem : rest.head? ≠ some .item) :
    Takes (Node.valueUnless (fuel + 2) [.name, .value, .blockEnd] true)
      (.value :: (front ++ rest)) rest value := by
  have inside := builds.takes fuel rest enough noItem
  obtain ⟨token, more, rfl, bare⟩ := builds.bare
  have other : ∀ next ∈ (token :: more ++ rest).head?, next ∉ [.name, .value, .blockEnd] := by
    rintro _ ⟨⟩
    cases token with
    | scalar | blockRecord | item => simp
    | _ => cases bare
  rw [Node.valueUnless]
  exact (takes_accept _ _).bind (takes_nodeUnless other inside)

theorem BuildsFields.cons (builds : BuildsValue others value) (behind : BuildsFields front members)
    (isPlain : Bool) (text : Text) :
    BuildsFields (.name :: .scalar isPlain text :: .value :: (others ++ front))
      ((.scalar (Properties.tagOf {} isPlain text) text, value) :: members) := by
  refine ⟨by rintro _ ⟨⟩; rfl, fun fuel rest enough => ?_⟩
  simp only [List.length_cons, List.length_append] at enough
  obtain ⟨fuel, rfl⟩ := Nat.exists_eq_add_of_le' (show 4 ≤ fuel by omega)
  have noItem : (front ++ .blockEnd :: rest).head? ≠ some .item := by
    cases front with
    | nil => simp
    | cons token front => simp [behind.named token rfl]
  have first : Takes (nodeUnless (fuel + 3) [.name, .value, .blockEnd] true true)
      (.scalar isPlain text :: .value :: (others ++ (front ++ .blockEnd :: rest)))
      (.value :: (others ++ (front ++ .blockEnd :: rest))) _ :=
    takes_nodeUnless (by simp) (takes_scalar isPlain text _ fuel true true)
  have second : Takes (valueUnless (fuel + 3) [.name, .value, .blockEnd] true)
      (.value :: (others ++ (front ++ .blockEnd :: rest))) (front ++ .blockEnd :: rest) value :=
    builds.valueUnless (by omega) noItem
  have third := behind.takes (fuel + 3) rest (by omega)
  rw [fields, List.cons_append, List.cons_append, List.cons_append, List.append_assoc]
  exact (takes_accept _ _).bind (first.bind (second.bind (third.bind (takes_pure _ _))))

theorem BuildsFields.record (builds : BuildsFields front members) :
    BuildsValue (.blockRecord :: (front ++ [.blockEnd])) (.record .record members) := by
  refine ⟨⟨_, _, rfl, rfl⟩, fun fuel rest enough _ => ?_⟩
  simp only [List.length_cons, List.length_append] at enough
  obtain ⟨fuel, rfl⟩ := Nat.exists_eq_add_of_le' (show 2 ≤ fuel by omega)
  rw [List.cons_append, List.append_assoc]
  exact takes_record (builds.takes fuel rest (by omega)) true

theorem buildsItems_nil : BuildsItems [] [] := by
  intro fuel rest enough noItem
  cases fuel with
  | zero => cases enough
  | succ fuel =>
    rw [Node.items]
    exact (takes_accept_other noItem).bind (takes_pure [] rest)

theorem BuildsItems.cons (builds : BuildsFields others members) (behind : BuildsItems front nodes) :
    BuildsItems (.item :: .blockRecord :: (others ++ .blockEnd :: front))
      (.record .record members :: nodes) := by
  intro fuel rest enough noItem
  simp only [List.length_cons, List.length_append] at enough
  obtain ⟨fuel, rfl⟩ := Nat.exists_eq_add_of_le' (show 4 ≤ fuel by omega)
  have first : Takes (nodeUnless (fuel + 3) [.item, .name, .value, .blockEnd] true false)
      (.blockRecord :: (others ++ .blockEnd :: (front ++ rest))) (front ++ rest)
      (.record .record members) :=
    takes_nodeUnless (by simp) (takes_record (builds.takes fuel (front ++ rest) (by omega)) false)
  have second := behind (fuel + 3) rest (by omega) noItem
  rw [Node.items, List.cons_append, List.cons_append, List.append_assoc, List.cons_append]
  exact (takes_accept _ _).bind (first.bind (second.bind (takes_pure _ _)))

theorem BuildsItems.list (builds : BuildsItems (.item :: front) nodes) :
    BuildsValue (.item :: front) (.list .list nodes) := by
  refine ⟨⟨_, _, rfl, rfl⟩, fun fuel rest enough noItem => ?_⟩
  obtain ⟨fuel, rfl⟩ := Nat.exists_eq_add_of_le' (show 2 ≤ fuel by omega)
  exact takes_list (builds fuel rest (by omega) noItem)

theorem takes_directives (bare : token.isBare) (rest : List Token) (fuel : Nat) :
    Takes (directives (fuel + 1)) (token :: rest) (token :: rest) [] := by
  rw [directives]
  refine (takes_next? _).bind ?_
  cases token with
  | scalar | blockRecord | item => exact takes_pure [] _
  | _ => cases bare

theorem takes_ends (fuel : Nat) : Takes (document.ends (fuel + 1)) [.textEnd] [] () := by
  rw [document.ends]
  exact (takes_accept_other (by simp)).bind (takes_expect .textEnd [])

theorem BuildsFields.document_eq (builds : BuildsFields front members)
    (enough : 4 * front.length + 1 ≤ fuel) {known : List (List Char × List Char)}
    (handled : handles [] = .ok known) :
    document (fuel + 2) { tokens := .blockRecord :: (front ++ [.blockEnd, .textEnd]) } =
      .ok (some (.record .record members), { tokens := [], handles := known }) := by
  have inside := takes_record (builds.takes fuel [.textEnd] enough) false
  rw [document]
  refine bind_eq (takes_accept_other (by simp) _ rfl) ?_
  refine bind_eq (takes_directives rfl _ _ _ rfl) ?_
  refine bind_eq (by rw [handled]; rfl) ?_
  refine bind_eq rfl ?_
  refine bind_eq (takes_accept_other (by simp) _ rfl) ?_
  rw [if_neg (by simp), if_neg Bool.false_ne_true]
  exact bind_eq (inside _ rfl) (bind_eq (takes_ends _ _ rfl) rfl)

theorem BuildsFields.ofTokens_eq (builds : BuildsFields front members) :
    Node.ofTokens (.blockRecord :: (front ++ [.blockEnd, .textEnd])) =
      .ok (some (.record .record members)) := by
  have enough : 4 * front.length + 1 ≤ 8 * (front.length + 3) + 6 := by omega
  rw [Node.ofTokens, Node.reading, StateT.run]
  simp only [List.length_cons, List.length_append, List.length_nil]
  rw [builds.document_eq enough rfl]
  rfl

end Nodes

end Uncertainty.Yaml

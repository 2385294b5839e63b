import Uncertainty.Document.Yaml.Node
import Uncertainty.Document.Yaml.Token

/-!
Reading nodes from tokens. An anchor gives a name to the node behind it, and an alias stands for the
node of that name; a name is given once, before it is used. Inside the node of its name an alias
stands for what an earlier reading of the same tokens made of that node, so that tokens with such an
alias are read several times.
-/
namespace Uncertainty.Yaml

/-- The tokens left, the names given so far, the nodes that have been read of them, now and earlier,
and the handles that tags may use. -/
structure Input where
  tokens : List Token
  names : List (List Char) := []
  nodes : List (List Char × Node) := []
  earlier : List (List Char × Node) := []
  isEndless : Bool := false
  handles : List (List Char × List Char) := []

abbrev Reading := StateT Input (Except Fault)

namespace Reading

def next? : Reading (Option Token) := do
  return (← get).tokens.head?

def skip : Reading Unit :=
  modify fun input => { input with tokens := input.tokens.drop 1 }

def refuse {α : Type} : Reading α := do
  match ← next? with
  | some (.fault reason) => throw reason
  | _ => throw .malformed

def isAt (tokens : List Token) : Reading Bool := do
  return (← next?).any tokens.contains

def accept (token : Token) : Reading Bool := do
  if ← isAt [token] then
    skip
    return true
  else return false

def expect (token : Token) : Reading Unit := do
  if !(← accept token) then refuse

def giveName (name : List Char) : Reading Unit := do
  if (← get).names.contains name then throw .malformed
  modify fun input => { input with names := name :: input.names }

def nameNode (name : List Char) (node : Node) : Reading Unit :=
  modify fun input => { input with nodes := (name, node) :: input.nodes }

/-- The node of a name. Where nothing is known of it yet it is taken for an empty record. -/
def namedNode (name : List Char) : Reading Node := do
  let input ← get
  if !input.names.contains name then throw .malformed
  match input.nodes.lookup name with
  | some node => return node
  | none =>
    set { input with isEndless := true }
    return .again ((input.earlier.lookup name).getD (.record .record []))

def address (shorthand : Shorthand) : Reading (List Char) := do
  match shorthand.handle with
  | none => return shorthand.suffix
  | some handle =>
    match (← get).handles.lookup handle with
    | some front => return front ++ shorthand.suffix
    | none => throw .malformed

end Reading

structure Properties where
  anchor : Option (List Char) := none
  address : Option (List Char) := none

namespace Properties

def anchor? : Reading (Option (List Char)) := do
  match ← Reading.next? with
  | some (.anchor name) =>
    Reading.skip
    return some name
  | _ => return none

def address? : Reading (Option (List Char)) := do
  match ← Reading.next? with
  | some (.tag shorthand) =>
    Reading.skip
    return some (← Reading.address shorthand)
  | _ => return none

def read : Reading Properties := do
  match ← anchor? with
  | some name => return ⟨some name, ← address?⟩
  | none =>
    match ← address? with
    | some address => return ⟨← anchor?, some address⟩
    | none => return {}

def isNone (properties : Properties) : Bool :=
  properties.anchor.isNone && properties.address.isNone

def tag? (properties : Properties) : Option Tag :=
  match properties.address with
  | none | some ['!'] => none
  | some address => some (Tag.ofAddress address)

/-- The tag of a scalar. One that is plain, or that an empty tag stands in front of, has that of its
form; any other one is a text. -/
def tagOf (properties : Properties) (isPlain : Bool) (text : Text) : Tag :=
  properties.tag?.getD <|
    if isPlain || properties.address.isSome then
      (text.toString?.map fun s => Tag.ofPlain s.toList).getD .text
    else .text

end Properties

namespace Node

open Reading

mutual

/-- The node at the front. In block style lists and records may be opened by their columns, and in
a field a list may start in the column of the field. -/
def node : Nat → Bool → Bool → Reading Node
  | 0, _, _ => throw .malformed
  | fuel + 1, inBlock, inField => do
    match ← next? with
    | some (.alias name) =>
      skip
      namedNode name
    | _ =>
      let properties ← Properties.read
      properties.anchor.forM giveName
      let node ← content fuel inBlock inField properties
      match properties.anchor with
      | some name => nameNode name node
      | none => pure ()
      return node

def content : Nat → Bool → Bool → Properties → Reading Node
  | 0, _, _, _ => throw .malformed
  | fuel + 1, inBlock, inField, properties => do
    let listTag := properties.tag?.getD .list
    let recordTag := properties.tag?.getD .record
    match inBlock, inField, ← next? with
    | _, true, some .item => return list listTag (← items fuel true)
    | _, _, some (.scalar isPlain text) =>
      skip
      return scalar (properties.tagOf isPlain text) text
    | _, _, some .openList =>
      skip
      return list listTag (← flowItems fuel true)
    | _, _, some .openRecord =>
      skip
      return record recordTag (← flowFields fuel true)
    | true, _, some .blockList =>
      skip
      let node := list listTag (← items fuel false)
      expect .blockEnd
      return node
    | true, _, some .blockRecord =>
      skip
      let node := record recordTag (← fields fuel)
      expect .blockEnd
      return node
    | _, _, _ =>
      if properties.isNone then refuse
      else return scalar (properties.tagOf true "") ""

def nodeUnless : Nat → List Token → Bool → Bool → Reading Node
  | 0, _, _, _ => throw .malformed
  | fuel + 1, ends, inBlock, inField => do
    if ← isAt ends then return empty else node fuel inBlock inField

/-- The items of a list in block style, which may stand in a field without a column of its own. -/
def items : Nat → Bool → Reading (List Node)
  | 0, _ => throw .malformed
  | fuel + 1, inField => do
    if ← accept .item then
      let ends := if inField then [.item, .name, .value, .blockEnd] else [.item, .blockEnd]
      let item ← nodeUnless fuel ends true false
      return item :: (← items fuel inField)
    else return []

def valueUnless : Nat → List Token → Bool → Reading Node
  | 0, _, _ => throw .malformed
  | fuel + 1, ends, inBlock => do
    if ← accept .value then nodeUnless fuel ends inBlock inBlock else return empty

def fields : Nat → Reading (List (Node × Node))
  | 0 => throw .malformed
  | fuel + 1 => do
    if ← accept .name then
      let ends := [.name, .value, .blockEnd]
      let name ← nodeUnless fuel ends true true
      let value ← valueUnless fuel ends true
      return (name, value) :: (← fields fuel)
    else return []

def flowField : Nat → Token → Reading (Node × Node)
  | 0, _ => throw .malformed
  | fuel + 1, closing => do
    let name ← nodeUnless fuel [.value, .comma, closing] false false
    return (name, ← valueUnless fuel [.comma, closing] false)

/-- The items of a list up to its closing bracket; one of them may be a single field. -/
def flowItems : Nat → Bool → Reading (List Node)
  | 0, _ => throw .malformed
  | fuel + 1, isFirst => do
    if ← accept .closeList then return []
    if !isFirst then expect .comma
    if ← accept .closeList then return []
    let item ←
      if ← accept .name then do pure (record .record [← flowField fuel .closeList])
      else node fuel false false
    return item :: (← flowItems fuel false)

def flowFields : Nat → Bool → Reading (List (Node × Node))
  | 0, _ => throw .malformed
  | fuel + 1, isFirst => do
    if ← accept .closeRecord then return []
    if !isFirst then expect .comma
    if ← accept .closeRecord then return []
    let field ←
      if ← accept .name then flowField fuel .closeRecord
      else do pure (← node fuel false false, empty)
    return field :: (← flowFields fuel false)

end

/-- The handles that a document knows: two that are fixed unless directives name them, and those
named by its directives. Of the version only the first number counts. -/
def handles (directives : List Directive) : Except Fault (List (List Char × List Char)) := do
  let versions := directives.filter fun d => d matches .version _
  if 1 < versions.length || versions.any (· ≠ .version 1) then throw .malformed
  let named := directives.filterMap fun
    | .handle name address => some (name, address)
    | _ => none
  if !(named.map (·.1)).Nodup then throw .malformed
  return named ++ [(['!'], ['!']), (['!', '!'], Tag.address)]

def directives : Nat → Reading (List Directive)
  | 0 => throw .malformed
  | fuel + 1 => do
    match ← next? with
    | some (.directive directive) =>
      skip
      return directive :: (← directives fuel)
    | _ => return []

/-- The only document of a text, none if there is none. Marks start it and end it, or the text. -/
def document (fuel : Nat) : Reading (Option Node) := do
  if ← accept .textEnd then return none
  let named ← directives fuel
  let known ← handles named
  modify fun input => { input with handles := known }
  let isMarked ← accept .documentStart
  if !isMarked && !named.isEmpty then refuse
  let node ←
    if isMarked then nodeUnless fuel [.documentStart, .documentEnd, .textEnd] true false
    else node fuel true false
  ends fuel
  return some node
where
  ends : Nat → Reading Unit
    | 0 => throw .malformed
    | fuel + 1 => do if ← accept .documentEnd then ends fuel else expect .textEnd

def reading (tokens : List Token) (earlier : List (List Char × Node)) :
    Except Fault (Option Node × Input) :=
  (document (8 * tokens.length + 8)).run { tokens, earlier }

/-- The node that some tokens write. After three readings an alias inside the node of its name shows
the node as it is, down to a further such alias. -/
def ofTokens (tokens : List Token) : Except Fault (Option Node) := do
  let (node, noted) ← reading tokens []
  if !noted.isEndless then return node
  let (_, noted) ← reading tokens noted.nodes
  return (← reading tokens noted.nodes).1

end Node
end Uncertainty.Yaml

import Uncertainty.Document.Order

/-!
Documents written as JSON on one line, with the fields of records in ascending order of their names.
All names are written as texts; some documents cannot be written, or cannot be put in order.
-/
namespace Uncertainty.Json

def escapes : List (Char × Char) :=
  [('"', '"'), ('\\', '\\'), ('\n', 'n'), ('\r', 'r'), ('\t', 't'), ('\x0c', 'f'), ('\x08', 'b')]

def writeCharacter (c : Char) : List Char :=
  match escapes.lookup c with
  | some letter => ['\\', letter]
  | none => if c.toNat < 0x20 then '\\' :: 'u' :: Text.hex 4 c.toNat else [c]

def writePoint : CodePoint → List Char
  | .character c => writeCharacter c
  | .half offset => '\\' :: 'u' :: Text.hex 4 (CodePoint.half offset).number

/-- A text in double quotes; characters past the seven-bit range stand for themselves. Halves of
characters are written as their numbers, so the two halves of one character in a row are read back
as that character. A writer that leaves them as they are reads them back as two. -/
def writeText (text : Text) : List Char :=
  '"' :: text.points.flatMap writePoint ++ ['"']

def writeReal : Binary64 → List Char
  | .nan => "NaN".toList
  | .infinite negative => (if negative then "-Infinity" else "Infinity").toList
  | x => x.toText.toList

def writeScalar : Scalar → List Char
  | .null => "null".toList
  | .boolean b => (if b then "true" else "false").toList
  | .integer n => (toString n).toList
  | .real x => writeReal x
  | .text s => writeText s
  | .bytes values => writeText ⟨values.map fun byte => .character (Char.ofNat byte.toNat)⟩
  | .moment m => writeText m.text

def writeName : Scalar → List Char
  | .text s => writeText s
  | name => writeText (String.ofList (writeScalar name))

mutual

/-- A comma is followed by a blank, and so is a colon. What stands inside itself is left out. -/
def write : Document → List Char
  | .scalar s => writeScalar s
  | .list items => '[' :: writeItems items ++ [']']
  | .pair first second => '[' :: write first ++ ',' :: ' ' :: write second ++ [']']
  | .set members => '[' :: [',', ' '].intercalate (members.map writeScalar) ++ [']']
  | .record fields => '\x7b' :: writeFields fields ++ ['\x7d']
  | .again _ => []

def writeItems : List Document → List Char
  | [] => []
  | [item] => write item
  | item :: rest => write item ++ ',' :: ' ' :: writeItems rest

def writeFields : List (Scalar × Document) → List Char
  | [] => []
  | [(name, value)] => writeName name ++ ':' :: ' ' :: write value
  | (name, value) :: rest =>
    writeName name ++ ':' :: ' ' :: write value ++ ',' :: ' ' :: writeFields rest

end

inductive Unwritable where
  | kind (name : String)
  | nameKind (name : String)
  | unordered (reason : Unordered)
  | endless
deriving DecidableEq

def Unwritable.message : Unwritable → String
  | kind name => s!"Object of type {name} is not JSON serializable"
  | nameKind name => s!"keys must be str, int, float, bool or None, not {name}"
  | unordered reason => reason.message
  | endless => "Circular reference detected"

def orderedScalar : Scalar → Except Unwritable Document
  | .bytes _ => .error (.kind "bytes")
  | .moment m => .error (.kind m.shortKind)
  | scalar => .ok (.scalar scalar)

/-- A field of an ordered record, whose value is looked at behind its name. -/
def orderedField : Scalar × Except Unwritable Document → Except Unwritable (Scalar × Document)
  | (.bytes _, _) => .error (.nameKind "bytes")
  | (.moment m, _) => .error (.nameKind m.kind)
  | (name, value) => value.map (name, ·)

mutual

def ordered : Document → Except Unwritable Document
  | .scalar s => orderedScalar s
  | .list items => (orderedItems items).map .list
  | .pair first second => do return .pair (← ordered first) (← ordered second)
  | .set _ => .error (.kind "set")
  | .record fields => do
    let fields ← (Scalar.sortByName (orderedValues fields)).mapError .unordered
    return .record (← fields.mapM orderedField)
  | .again _ => .error .endless

def orderedItems : List Document → Except Unwritable (List Document)
  | [] => .ok []
  | item :: rest => do return (← ordered item) :: (← orderedItems rest)

def orderedValues : List (Scalar × Document) → List (Scalar × Except Unwritable Document)
  | [] => []
  | (name, value) :: rest => (name, ordered value) :: orderedValues rest

end

def text (document : Document) : Except Unwritable String :=
  (ordered document).map (String.ofList ∘ write)

end Uncertainty.Json

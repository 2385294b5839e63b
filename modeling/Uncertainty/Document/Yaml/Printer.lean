import Uncertainty.Document
import Uncertainty.Document.Base64
import Uncertainty.Document.Yaml.Plain
import Uncertainty.Document.Yaml.Tag

/-!
Documents written as YAML in block style: one field or item on a line, fields of an inner record two
columns further in, items of a list under the name of its field. A text is plain unless it would
then be read as something else. A pair is written as a list, and what has no form of its own with a
tag on one line; what stands inside itself is empty there.
-/
namespace Uncertainty.Yaml

/-- Characters that may end a plain scalar or the line that it stands on. -/
def isDelimiter (c : Char) : Bool :=
  ":#,?[]\x7b\x7d".toList.contains c || c.toNat ≤ 0x20 || !Text.isPrintable c

def isPlain (characters : List Char) : Bool :=
  match characters with
  | [] => false
  | first :: _ =>
    !isIndicator first && !characters.any isDelimiter && Tag.ofPlain characters = .text

def quoteText (characters : List Char) : List Char :=
  '\'' :: characters.flatMap (fun c => if c = '\'' then ['\'', '\''] else [c]) ++ ['\'']

def writeText (text : Text) : List Char :=
  let characters := text.shown.toList
  if isPlain characters then characters else quoteText characters

def writeReal : Binary64 → List Char
  | .nan => ".nan".toList
  | .infinite negative => (if negative then "-.inf" else ".inf").toList
  | x => x.toText.toList

def writeScalar : Scalar → List Char
  | .null => "null".toList
  | .boolean b => (if b then "true" else "false").toList
  | .integer n => (toString n).toList
  | .real x => writeReal x
  | .text s => writeText s
  | .bytes values => "!!binary ".toList ++ quoteText (Base64.encode values)
  | .moment m => m.text.toList

/-- A document that fits on one line: a scalar, a set, or a list or record with nothing in it. -/
def writeInline : Document → List Char
  | .scalar s => writeScalar s
  | .set members =>
    "!!set \x7b".toList ++ [',', ' '].intercalate (members.map writeScalar) ++ ['\x7d']
  | .list _ | .pair .. => ['[', ']']
  | .record _ => ['\x7b', '\x7d']
  | .again whole => writeInline whole

def dashed (indent : Nat) : List Line → List Line
  | [] => []
  | first :: rest => .ended indent ('-' :: ' ' :: first.content) :: rest

mutual

def blockLines (indent : Nat) : Document → List Line
  | .record (field :: fields) => fieldLines indent (field :: fields)
  | .list (item :: items) => itemLines indent (item :: items)
  | .pair first second =>
    dashed indent (blockLines (indent + 2) first) ++ dashed indent (blockLines (indent + 2) second)
  | document => [.ended indent (writeInline document)]

def fieldLines (indent : Nat) : List (Scalar × Document) → List Line
  | [] => []
  | (name, value) :: rest =>
    (match value with
      | .record (field :: fields) =>
        .ended indent (writeScalar name ++ [':']) :: fieldLines (indent + 2) (field :: fields)
      | .list (item :: items) =>
        .ended indent (writeScalar name ++ [':']) :: itemLines indent (item :: items)
      | .pair first second =>
        .ended indent (writeScalar name ++ [':']) ::
          (dashed indent (blockLines (indent + 2) first)
            ++ dashed indent (blockLines (indent + 2) second))
      | value => [.ended indent (writeScalar name ++ ':' :: ' ' :: writeInline value)])
    ++ fieldLines indent rest

def itemLines (indent : Nat) : List Document → List Line
  | [] => []
  | item :: rest => dashed indent (blockLines (indent + 2) item) ++ itemLines indent rest

end

def write (document : Document) : String :=
  String.ofList ((blockLines 0 document).flatMap Line.write)

end Uncertainty.Yaml

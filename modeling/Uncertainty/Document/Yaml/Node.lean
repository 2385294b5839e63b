import Uncertainty.Document.Yaml.Tag
import Uncertainty.Text

/-!
The nodes of a text: what it says before its tags are followed. An alias has been replaced by the
node that it stands for, so that a node may occur more than once.
-/
namespace Uncertainty.Yaml

inductive Node where
  | scalar (tag : Tag) (text : Text)
  | list (tag : Tag) (items : List Node)
  | record (tag : Tag) (fields : List (Node × Node))
  /-- What stands around this place, as it is seen from here. -/
  | again (whole : Node)

namespace Node

def empty : Node := scalar .null ""

instance : Inhabited Node := ⟨empty⟩

def tag : Node → Tag
  | scalar tag _ | list tag _ | record tag _ => tag
  | again whole => whole.tag

end Node
end Uncertainty.Yaml

import Uncertainty.Document.Moment
import Uncertainty.Text.Integer

/-!
Why a text writes no document: its form is wrong, or it says what kind of data something is that
cannot be read as such.
-/
namespace Uncertainty.Yaml

inductive Fault where
  | malformed
  | noSuchCharacter
  | characterTooLarge
  | emptyNumber
  | integer (reason : IntegerError)
  | notReal (text : Text)
  | notBoolean (text : Text)
  | notMoment
  | nonexistent (reason : Moment.Nonexistent)
  | baseTooLarge
deriving DecidableEq

namespace Fault

def message : Fault → String
  | malformed => ""
  | noSuchCharacter => "chr() arg not in range(0x110000)"
  | characterTooLarge => "int too large to convert to C int"
  | emptyNumber => "string index out of range"
  | integer reason => reason.message
  | notReal text => "could not convert string to float: " ++ Text.quoted text
  | notBoolean text => Text.quoted text
  | notMoment => "'NoneType' object has no attribute 'groupdict'"
  | nonexistent reason => reason.message
  | baseTooLarge => "int too large to convert to float"

end Fault
end Uncertainty.Yaml

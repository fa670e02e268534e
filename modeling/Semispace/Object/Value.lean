import Semispace.Object.Tag
import Semispace.Word
/-!
# Values

What an object means, free of its words: an integer, a boolean, or a list of optional references.
-/

namespace Semispace

/-- The meaning of one object. -/
inductive Value
  | int (v : Int64)
  | bool (v : Bool)
  | vector (slots : List (Option Ref))
  deriving DecidableEq

/-- The tag of the object a value is read from. -/
def Value.tag : Value → Tag
  | int _ => .int
  | bool _ => .bool
  | vector _ => .vector

end Semispace

/-!
# Access rights

A run of pages is either closed to every access or open for reading and writing.
-/

namespace Semispace

/-- The rights to a run of pages. -/
inductive Access
  | closed
  | open
  deriving DecidableEq, Repr

/-- The name of a right in messages. -/
def Access.name : Access → String
  | closed => "None"
  | .open => "ReadWrite"

end Semispace

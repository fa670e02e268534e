import Semispace.Config.Basic
import Semispace.Text.Integer
import Semispace.Text.Utf8
/-!
# Configuration from the environment

Four variables override the standard configuration. A size counts when it is an unsigned integer of
64 bits, a switch is on for `1` and for `true` in any case, and a value that is not text counts as
unset.
-/

namespace Semispace

/-- The variables of a process, by name. -/
structure Environment where
  entries : List (String × List UInt8)

namespace Environment

/-- No variable is set. -/
def empty : Environment := ⟨[]⟩

/-- The value of a variable, when it is set and is text. -/
def lookup? (env : Environment) (name : String) : Option (List Char) :=
  (env.entries.lookup name).bind Text.decodeUtf8

/-- A size, or the given one when the variable holds none. -/
def sizeOr (env : Environment) (name : String) (standard : Nat) : Nat :=
  match (env.lookup? name).map Text.readUnsigned with
  | some (.ok n) => n.toNat
  | _ => standard

/-- Whether a switch is on. -/
def isOn (env : Environment) (name : String) : Bool :=
  match env.lookup? name with
  | none => false
  | some cs => cs == ['1'] || cs.map Char.toLower == ['t', 'r', 'u', 'e']

/-- The configuration a process asks for. -/
def config (env : Environment) : Config where
  heapWords := env.sizeOr "X0GC_HEAP_WORDS" Config.standard.heapWords
  rootCapacity := env.sizeOr "X0GC_ROOT_STACK" Config.standard.rootCapacity
  verbose := env.isOn "X0GC_VERBOSE"
  jsonLines := env.isOn "X0GC_JSON_LOG"

end Environment

end Semispace

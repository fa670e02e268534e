import Semispace.Text.Record
/-!
# Sizes fixed at start

A collector is configured once, with the size of its heap, the capacity of its root stack and what
it prints. `Config.fault?` names the first size that cannot be used.
-/

namespace Semispace

/-- What a collector is started with. -/
structure Config where
  /-- The size of the whole heap; each half serves half of it. -/
  heapWords : Nat
  rootCapacity : Nat
  /-- Events are printed on the console. -/
  verbose : Bool
  /-- Printed events are JSON lines. -/
  jsonLines : Bool
  deriving DecidableEq, Repr

namespace Config

/-- A mebiword of heap and 4096 roots, printing nothing. -/
def standard : Config := ⟨1048576, 4096, false, false⟩

/-- The standard configuration with other sizes. -/
def withSizes (heapWords rootCapacity : Nat) : Config :=
  { standard with heapWords, rootCapacity }

/-- Words in one half. -/
def spaceWords (c : Config) : Nat := c.heapWords / 2

/-- A size that cannot be used. -/
inductive Fault
  /-- A half could not hold the smallest object. -/
  | heapTooSmall (heapWords : Nat)
  /-- The heap has more bytes than there are addresses. -/
  | heapOverflows
  | noRoots
  deriving DecidableEq, Repr

/-- The wording of a fault. -/
def Fault.message : Fault → String
  | heapTooSmall h => s!"Invalid heap size: heap_size_words must be at least 4 (got {h})"
  | heapOverflows => "Invalid heap size: heap_size_words overflows the address space"
  | noRoots => "Invalid root stack: root_stack_capacity must be > 0"

/-- The first fault of a configuration, if it has one. -/
def fault? (c : Config) : Option Fault :=
  if c.spaceWords < 2 then some (.heapTooSmall c.heapWords)
  else if UInt64.size ≤ c.heapWords * 8 then some .heapOverflows
  else if c.rootCapacity = 0 then some .noRoots
  else none

/-- How a configuration is shown to a programmer. -/
def text (c : Config) : String :=
  Text.record "GcConfig" [
    ("heap_size_words", toString c.heapWords),
    ("root_stack_capacity", toString c.rootCapacity),
    ("verbose", toString c.verbose),
    ("json_log", toString c.jsonLines)]

end Config

end Semispace

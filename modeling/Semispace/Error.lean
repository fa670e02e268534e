import Semispace.Config.Basic
import Semispace.Heap.Access
import Semispace.Heap.Half
import Semispace.Object.Tag
import Semispace.Word
/-!
# Errors

Each error says what went wrong; its wording is computed from that in one place. An error is
*recoverable* when it is a capacity the caller may live with, *fatal* when the process must not go
on, and neither when the caller asked for something it cannot have. No error is both.
-/

namespace Semispace

/-! ## Causes -/

/-- What is wrong with an argument. -/
inductive ArgumentFault
  | liveRoots (count top : Nat)
  | wrongTag (expected : Tag) (ref : Ref) (found : Tag)
  | slotOutOfBounds (index length : Nat)
  | other (text : String)
  deriving DecidableEq, Repr

/-- What is wrong with an object in the heap. -/
inductive RecordFault
  | unknownTag (word : Word)
  | overrunsHalf (tag : Tag) (length : Word)
  | pastCursor
  | other (text : String)
  deriving DecidableEq, Repr

/-- Why a heap size cannot be laid out. -/
inductive SizeFault
  | tooSmall (heapWords : Nat)
  | spaceOverflows (spaceWords : Nat)
  | heapOverflows
  | other (text : String)
  deriving DecidableEq, Repr

/-- Why memory could not be mapped. -/
inductive MappingFault
  /-- More bytes than a mapping can be asked to have. -/
  | tooLong (bytes : Nat)
  /-- More bytes than there is memory. -/
  | noMemory (bytes : Nat)
  | other (text : String)
  deriving DecidableEq, Repr

/-- Why access rights could not be set. -/
inductive AccessFault
  /-- The run does not start with a page. -/
  | unaligned (start : Word) (bytes : Nat) (access : Access)
  /-- A page of the run is not mapped. -/
  | unmapped (start : Word) (bytes : Nat) (access : Access)
  | other (text : String)
  deriving DecidableEq, Repr

/-- Why a configuration was refused. -/
inductive ConfigurationFault
  | invalid (fault : Config.Fault)
  | other (text : String)
  deriving DecidableEq, Repr

/-- What the collector must never see. -/
inductive InternalFault
  | copyWithinHalf (half : Half)
  | destinationClosed (half : Half)
  | destinationExhausted (source : Word) (requested available : Nat)
  | nullAllocation
  | nullRoot (root : Ref)
  | other (text : String)
  deriving DecidableEq, Repr

/-- Everything that can go wrong. -/
inductive Error
  | outOfMemory (requested available : Nat)
  | invalidSize (words : Nat)
  | rootStackOverflow (capacity : Nat)
  | rootStackEmpty
  | rootStackAllocation (capacity : Nat)
  | invalidArgument (fault : ArgumentFault)
  | invalidReference (address : Word)
  | protectedAccess (address : Word)
  | corruptObject (address : Word) (fault : RecordFault)
  | heapInitialization (fault : SizeFault)
  | virtualMemory (fault : MappingFault)
  | protectionFailed (fault : AccessFault)
  | configuration (fault : ConfigurationFault)
  | poisoned
  | internal (fault : InternalFault)
  deriving DecidableEq, Repr

/-! ## Wording -/

def ArgumentFault.message : ArgumentFault → String
  | liveRoots count top => s!"live root count {count} exceeds root stack top {top}"
  | wrongTag expected ref found => s!"expected {expected.name} at {ref.text}, found {found.name}"
  | slotOutOfBounds index length => s!"slot {index} out of bounds for vector of length {length}"
  | other text => text

def RecordFault.message : RecordFault → String
  | unknownTag word => s!"unknown tag {word}"
  | overrunsHalf tag length => s!"{tag.name} of length {length} overruns its space"
  | pastCursor => "object extends past the allocation cursor"
  | other text => text

def SizeFault.message : SizeFault → String
  | tooSmall heapWords => s!"heap of {heapWords} words cannot be split into two spaces"
  | spaceOverflows spaceWords => s!"space of {spaceWords} words overflows the address space"
  | heapOverflows => "total heap size overflows"
  | other text => text

def MappingFault.message : MappingFault → String
  | tooLong bytes => s!"Failed to map {bytes} bytes for heap: memory map length overflows isize"
  | noMemory bytes => s!"Failed to map {bytes} bytes for heap: Cannot allocate memory (os error 12)"
  | other text => text

def AccessFault.message : AccessFault → String
  | unaligned start bytes access =>
    s!"mprotect({start.hex}, {bytes}, {access.name}) failed: Invalid argument (os error 22)"
  | unmapped start bytes access =>
    s!"mprotect({start.hex}, {bytes}, {access.name}) failed: Cannot allocate memory (os error 12)"
  | other text => text

def ConfigurationFault.message : ConfigurationFault → String
  | invalid fault => "Invalid configuration: " ++ fault.message
  | other text => text

private def shortOfMemory (requested available : Nat) : String :=
  s!"Out of memory: requested {requested} words, available {available} words"

def InternalFault.message : InternalFault → String
  | copyWithinHalf half => s!"copy within {half.name} space is not a relocation"
  | destinationClosed half => s!"{half.name} space must be opened before relocation"
  | destinationExhausted source requested available =>
    s!"destination space exhausted copying {source.hex}: {shortOfMemory requested available}"
  | nullAllocation => "allocation produced a null address"
  | nullRoot root => s!"root {root.text} relocated to null"
  | other text => text

namespace Error

/-- The wording of an error. -/
def message : Error → String
  | outOfMemory requested available => shortOfMemory requested available
  | invalidSize words => s!"Invalid allocation size: {words} words"
  | rootStackOverflow capacity => s!"Root stack overflow: capacity {capacity}"
  | rootStackEmpty => "Root stack is empty"
  | rootStackAllocation capacity => s!"Unable to allocate root stack of {capacity} entries"
  | invalidArgument fault => "Invalid argument: " ++ fault.message
  | invalidReference address => s!"Invalid reference: {address.hex}"
  | protectedAccess address => s!"Access to protected space at {address.hex}"
  | corruptObject address fault => s!"Corrupt object at {address.hex}: {fault.message}"
  | heapInitialization fault => "Heap initialization failed: " ++ fault.message
  | virtualMemory fault => "Virtual memory error: " ++ fault.message
  | protectionFailed fault => "Page protection change failed: " ++ fault.message
  | configuration fault => "Configuration error: " ++ fault.message
  | poisoned => "Collector is poisoned by an earlier failed collection"
  | internal fault => "Internal error: " ++ fault.message

/-! ## Severity -/

/-- A capacity was reached; the caller may go on. -/
def isRecoverable : Error → Bool
  | outOfMemory .. | rootStackOverflow _ | rootStackEmpty => true
  | _ => false

/-- The heap can no longer be trusted, or could not be set up; the process must not go on. -/
def isFatal : Error → Bool
  | protectedAccess _ | corruptObject .. | heapInitialization _ | virtualMemory _
  | protectionFailed _ | rootStackAllocation _ | poisoned | internal _ => true
  | _ => false

/-- The exit code of a process that an error ends. -/
def exitCode : Error → Int
  | heapInitialization _ | virtualMemory _ => -1
  | protectionFailed _ => -2
  | protectedAccess _ | corruptObject .. => -3
  | rootStackAllocation _ => -4
  | poisoned | internal _ => -5
  | configuration _ => -6
  | _ => 1

theorem not_fatal_of_recoverable {e : Error} (h : e.isRecoverable) : e.isFatal = false := by
  cases e <;> first | rfl | cases h

end Error

end Semispace

import Semispace.Error
import Semispace.Report.Event
import Semispace.Text.Integer
import Semispace.Text.Quoted
/-!
# Notices and the journal

Everything a running program reports is a notice with a level and a text; events are among them. A
journal is what was reported and printed so far, in order.
-/

namespace Semispace

/-- A call of the program's interface to the heap, by the name it reports under. -/
inductive EntryPoint
  | init
  | malloc
  | collect
  | push
  | pop
  | destroy
  deriving DecidableEq, Repr

/-- The name of an entry point. -/
def EntryPoint.name : EntryPoint → String
  | init => "gc_init"
  | malloc => "gc_malloc"
  | collect => "gc_collect"
  | push => "root_stack_push"
  | pop => "root_stack_pop"
  | destroy => "gc_destroy"

/-- One report. -/
inductive Notice
  | event (e : Event)
  -- the heap
  | heapMapped (base : Word) (spaceBytes spaceWords : Nat)
  | heapReleased (base : Word) (bytes : Nat)
  | halvesExchanged (active vacated : Half)
  | objectCopied (tag : Tag) (words : Nat) (source target : Word)
  -- the collector
  | started (spaceWords rootCapacity : Nat)
  | stopped (cycles allocations : Nat)
  | exhausted (requested available : Nat)
  | passFailed (cycle : Nat) (error : Error)
  | rootsFull (capacity : Nat)
  -- the program's interface
  | alreadyInitialized
  | negativeSizes (heap roots : Int)
  | initRefused (error : Error)
  | sizeRefused (size : Int) (error : Error)
  | negativeLiveCount (count : Int)
  | nullPushed
  | notInitialized (call : EntryPoint)
  | callRefused (call : EntryPoint) (error : Error)
  | nothingToDestroy
  | fatal (error : Error)
  | signalled (signal : Nat)
  -- the console
  | endOfInput
  | lineNotText
  | lineNotInteger (line : List Char) (fault : Text.IntegerFault)

namespace Notice

/-- The level of a notice. -/
def level : Notice → Level
  | event e => e.level
  | passFailed .. | exhausted .. | negativeSizes .. | initRefused _ | notInitialized _ | fatal _ =>
    .error
  | rootsFull _ | alreadyInitialized | sizeRefused .. | negativeLiveCount _ | nullPushed
  | callRefused .. | nothingToDestroy | signalled _ | endOfInput | lineNotText
  | lineNotInteger .. => .warn
  | started .. | stopped .. => .info
  | heapMapped .. | heapReleased .. | halvesExchanged .. => .debug
  | objectCopied .. => .trace

/-- The text of a notice. -/
def text : Notice → String
  | event e => e.text
  | heapMapped base spaceBytes spaceWords =>
    s!"heap mapped at {base.hex}: 2 x {spaceBytes} bytes ({spaceWords} usable words per space)"
  | heapReleased base bytes => s!"releasing heap mapping at {base.hex} ({bytes} bytes)"
  | halvesExchanged active vacated =>
    s!"heap swap: {active.name} space active, {vacated.name} space protected"
  | objectCopied tag words source target =>
    s!"copied {tag.name} ({words} words) {source.hex} -> {target.hex}"
  | started spaceWords rootCapacity =>
    s!"x0gc initialized: {spaceWords} words per space, {rootCapacity} root slots"
  | stopped cycles allocations =>
    s!"x0gc shutting down after {cycles} collections ({allocations} allocations)"
  | exhausted requested available =>
    s!"out of memory: {requested} words requested, {available} available after collection"
  | passFailed cycle error => s!"collection {cycle} failed, collector poisoned: {error.message}"
  | rootsFull capacity => s!"root stack overflow at capacity {capacity}"
  | alreadyInitialized => s!"{EntryPoint.init.name}: runtime already initialized"
  | negativeSizes heap roots =>
    s!"{EntryPoint.init.name}: negative size (heap {heap}, roots {roots})"
  | initRefused error => s!"{EntryPoint.init.name}: {error.message}"
  | sizeRefused size error => s!"{EntryPoint.malloc.name}({size}): {error.message}"
  | negativeLiveCount count =>
    s!"{EntryPoint.collect.name}: negative live root count {count}"
  | nullPushed => s!"{EntryPoint.push.name}: null reference"
  | notInitialized call => s!"{call.name}: runtime not initialized"
  | callRefused call error => s!"{call.name}: {error.message}"
  | nothingToDestroy => s!"{EntryPoint.destroy.name}: runtime not initialized"
  | fatal error => s!"fatal runtime error: {error.message}"
  | signalled signal => s!"received signal {signal}, releasing the heap"
  | endOfInput => "read_int: end of input"
  | lineNotText => "read_int: stream did not contain valid UTF-8"
  | lineNotInteger line fault =>
    s!"read_int: {Text.quoted line} is not an integer: {fault.message}"

/-- The event a notice reports, if it reports one. -/
def event? : Notice → Option Event
  | event e => some e
  | _ => none

end Notice

/-- A line on the console. -/
structure ConsoleLine where
  /-- The line starts with the time of day. -/
  stamped : Bool
  text : String
  deriving DecidableEq, Repr

/-- What was reported and what was printed. -/
structure Journal where
  notices : Array Notice
  console : Array ConsoleLine

namespace Journal

/-- Nothing yet. -/
def empty : Journal := ⟨#[], #[]⟩

/-- Adds a notice. -/
def report (j : Journal) (n : Notice) : Journal :=
  { j with notices := j.notices.push n }

/-- Adds notices in order. -/
def reportAll (j : Journal) (ns : List Notice) : Journal :=
  { j with notices := j.notices.appendList ns }

/-- The events among the notices. -/
def events (j : Journal) : List Event :=
  j.notices.toList.filterMap Notice.event?

end Journal

end Semispace

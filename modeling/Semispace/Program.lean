import Semispace.Collector.Mutation
import Semispace.Config.Environment
import Semispace.Heap.Plain
import Semispace.Heap.Size
/-!
# The heap of a running program

Generated code reaches the heap through a few calls on one process-wide slot for a collector, and by
plain loads and stores. A call answers with a value whatever happens to it, except that a fatal
error, a fault and a signal end the process; the heap is then released first.
-/

namespace Semispace

/-- A program as far as the heap is concerned. -/
structure Program where
  machine : Machine
  environment : Environment
  slot : Option Collector
  journal : Journal

/-- What a call does: it answers and leaves a program, or ends it with an exit status. -/
abbrev Call := EStateM UInt8 Program

/-- The exit status of an exit code. -/
def exitStatus (code : Int) : UInt8 := UInt8.ofNat (code % 256).toNat

namespace Program

/-- A program that has not set up a heap. -/
def start (machine : Machine) (environment : Environment) : Program :=
  ⟨machine, environment, none, .empty⟩

end Program

namespace Call

/-- Reports a notice. -/
def report (n : Notice) : Call Unit :=
  modify fun p => { p with journal := p.journal.report n }

/-- Releases the heap, if there is one. -/
def release : Call Unit :=
  modify fun p => match p.slot with
    | none => p
    | some c => { p with slot := none, journal := c.shutDown p.journal }

/-- Ends the process because of a fatal error. -/
def terminate {α : Type} (e : Error) : Call α := do
  report (.fatal e)
  release
  throw (exitStatus e.exitCode)

/-- Ends the process because of a signal. -/
def raise {α : Type} (signal : Nat) : Call α := do
  report (.signalled signal)
  release
  throw (UInt8.ofNat signal)

/-- The signal of an access to memory that is not there or closed. -/
def faultSignal : Nat := 11

/-- Runs an operation on the collector in the slot. A fatal error ends the process, any other is
reported. -/
def onCollector {α : Type} (call : EntryPoint) (op : Mutator α) : Call (Option α) := do
  let p ← get
  match p.slot with
  | none =>
    report (.notInitialized call)
    return none
  | some c =>
    match op.run ⟨c, p.journal⟩ with
    | .ok a s =>
      set { p with slot := some s.collector, journal := s.journal }
      return some a
    | .error e s =>
      set { p with slot := some s.collector, journal := s.journal }
      if e.isFatal then terminate e
      else
        report (.callRefused call e)
        return none

/-! ## The calls -/

/-- Sets up a heap of `heap` words and a stack of `roots` roots, unless there is one. -/
def init (heap roots : Int) : Call Bool := do
  let p ← get
  if p.slot.isSome then
    report .alreadyInitialized
    return true
  else if heap < 0 ∨ roots < 0 then
    report (.negativeSizes heap roots)
    return false
  else
    let config :=
      { p.environment.config with heapWords := heap.toNat, rootCapacity := roots.toNat }
    match (Collector.create p.machine config).run p.journal with
    | .ok c journal =>
      set { p with slot := some c, journal }
      return true
    | .error e journal =>
      set { p with journal }
      if e.isFatal then terminate e
      else
        report (.initRefused e)
        return false

/-- Allocates `size` bytes. -/
def malloc (size : Int) : Call (Option Ref) := do
  match wordsForBytes size with
  | .error e =>
    report (.sizeRefused size e)
    return none
  | .ok words => onCollector .malloc (Mutator.allocate words)

/-- Collects with the `live` lowest roots live. -/
def collect (live : Int) : Call Unit := do
  if live < 0 then report (.negativeLiveCount live)
  else
    let _ ← onCollector .collect (Mutator.collect live.toNat)

/-- Puts a reference on the root stack. -/
def push (r : Option Ref) : Call Bool := do
  match r with
  | none =>
    report .nullPushed
    return false
  | some r => return (← onCollector .push (Mutator.rootPush r)).isSome

/-- Takes the top root. -/
def pop : Call (Option Ref) :=
  onCollector .pop Mutator.rootPop

/-- The number of roots, zero without a heap. -/
def top : Call Nat := do
  match (← get).slot with
  | none => return 0
  | some c => return c.roots.top

/-- Releases the heap. -/
def destroy : Call Unit := do
  if (← get).slot.isSome then release else report .nothingToDestroy

/-! ## Plain access -/

/-- Loads the word at an address. -/
def load (addr : Word) : Call Word := do
  match (← get).slot.bind fun c => c.arena.load? addr with
  | none => raise faultSignal
  | some w => return w

/-- Stores a word at an address. -/
def store (addr w : Word) : Call Unit := do
  match (← get).slot with
  | none => raise faultSignal
  | some c =>
    match c.arena.store? addr w with
    | none => raise faultSignal
    | some arena => modify fun p => { p with slot := some { c with arena } }

end Call

end Semispace

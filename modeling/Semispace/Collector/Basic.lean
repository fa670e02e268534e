import Semispace.Heap.Cursor
import Semispace.Object.Header
import Semispace.Report.Logger
import Semispace.Report.Reason
import Semispace.RootStack
import Semispace.Step
/-!
# Collectors

A collector owns an arena, the cursor over its active half, the root stack, counters and a logger.
It starts idle and stays so unless a pass fails; a failed pass poisons it for good. What it reports
goes to a journal that it shares with the rest of the program.
-/

namespace Semispace

/-- What a collector is doing. -/
inductive Phase
  | idle
  | collecting
  /-- A pass failed part-way; the heap must not be changed any more. -/
  | poisoned
  deriving DecidableEq, Repr

/-- How a phase is shown to a programmer. -/
def Phase.text : Phase → String
  | idle => "Idle"
  | collecting => "Collecting"
  | poisoned => "Poisoned"

/-- A heap and all that is known about it. -/
structure Collector where
  arena : Arena
  /-- The words in use in the active half. -/
  cursor : Cursor
  roots : RootStack
  config : Config
  stats : Stats
  logger : Logger
  phase : Phase
  /-- Completed passes. -/
  cycles : Nat

/-- A collector with the journal it reports to. -/
structure Session where
  collector : Collector
  journal : Journal

/-- An operation that changes a collector. Its effects up to an error remain. -/
abbrev Mutator := EStateM Error Session

namespace Collector

/-! ## Start and end -/

/-- The notice that a heap was mapped. -/
def mappedNotice (a : Arena) : Notice :=
  .heapMapped (a.address ⟨.low, 0⟩) a.layout.spaceBytes a.spaceWords

/-- The notice that a heap was released. -/
def releasedNotice (a : Arena) : Notice :=
  .heapReleased (a.address ⟨.low, 0⟩) a.layout.mappedBytes

/-- Starts a collector. A heap that was mapped is released again when the root stack cannot be
reserved. -/
def create (machine : Machine) (config : Config) : EStateM Error Journal Collector := do
  match config.fault? with
  | some fault => throw (.configuration (.invalid fault))
  | none =>
    let arena ← Arena.map machine config.heapWords
    modify fun j => j.report (mappedNotice arena)
    match RootStack.ofCapacity machine config.rootCapacity with
    | .error e =>
      modify fun j => j.report (releasedNotice arena)
      throw e
    | .ok roots =>
      modify fun j => j.report (.started arena.spaceWords roots.capacity)
      return {
        arena
        cursor := .ofCapacity arena.spaceWords
        roots
        config
        stats := .zero
        logger := .ofConfig (.ofConfig config)
        phase := .idle
        cycles := 0 }

/-- Releases the heap of a collector. -/
def shutDown (c : Collector) (j : Journal) : Journal :=
  (j.report (.stopped c.cycles c.stats.allocations)).report (releasedNotice c.arena)

/-! ## What a collector shows -/

/-- Words in use in the active half. -/
def usedWords (c : Collector) : Nat := c.cursor.top

/-- Words free in the active half. -/
def freeWords (c : Collector) : Nat := c.cursor.remaining

/-- The part of the active half in use. -/
def utilization (c : Collector) : Float :=
  c.cursor.top.toFloat / c.cursor.capacity.toFloat

/-- Whether a pass failed. -/
def isPoisoned (c : Collector) : Bool := c.phase == .poisoned

/-- How a collector is shown to a programmer. -/
def text (c : Collector) : String :=
  Text.record "GarbageCollector" [
    ("arena", c.arena.text),
    ("used_words", toString c.usedWords),
    ("roots", toString c.roots.top),
    ("state", c.phase.text),
    ("cycle_count", toString c.cycles)]

end Collector

/-! ## Reporting -/

namespace Mutator

/-- Reports a notice. -/
def report (n : Notice) : Mutator Unit :=
  modify fun s => { s with journal := s.journal.report n }

/-- Gives an event to the logger. -/
def emit (e : Event) : Mutator Unit :=
  modify fun s => {
    collector := { s.collector with logger := s.collector.logger.keep e }
    journal := s.collector.logger.record s.journal e }

/-- The collector as it is. -/
def collector : Mutator Collector := return (← get).collector

/-- Changes the collector. -/
def update (f : Collector → Collector) : Mutator Unit :=
  modify fun s => { s with collector := f s.collector }

/-- Refuses to go on after a failed pass. -/
def ensureUsable : Mutator Unit := do
  if (← collector).isPoisoned then throw .poisoned

end Mutator

end Semispace

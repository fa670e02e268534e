import Semispace.Text.Json
import Semispace.Text.Record
/-!
# Counters

What a collector did over its life. The counters of a pass are added when the pass completes; the
pause total stops at the largest word.
-/

namespace Semispace

/-- The largest value of a 64-bit counter. -/
def counterLimit : Nat := UInt64.size - 1

/-- A span of time. -/
structure Pause where
  seconds : Nat
  nanoseconds : Nat
  deriving DecidableEq, Repr

namespace Pause

/-- No time at all. -/
def none : Pause := ⟨0, 0⟩

/-- Whole microseconds, up to the largest word. -/
def micros (p : Pause) : Nat :=
  min ((p.seconds * 1000000000 + p.nanoseconds) / 1000) counterLimit

/-- The span in milliseconds. -/
def millis (p : Pause) : Float :=
  (p.seconds * 1000000000 + p.nanoseconds).toFloat / 1000000.0

end Pause

/-- The counters of one collector. -/
structure Stats where
  cycles : Nat
  allocationTriggered : Nat
  allocations : Nat
  wordsAllocated : Nat
  objectsCopied : Nat
  wordsCopied : Nat
  lastObjectsCopied : Nat
  lastWordsCopied : Nat
  wordsReclaimed : Nat
  totalPauseMicros : Nat
  maxPauseMicros : Nat
  deriving DecidableEq, Repr

namespace Stats

/-- Nothing done yet. -/
def zero : Stats := ⟨0, 0, 0, 0, 0, 0, 0, 0, 0, 0, 0⟩

/-- Counts an allocation of `words` words. -/
def addAllocation (s : Stats) (words : Nat) : Stats :=
  { s with allocations := s.allocations + 1, wordsAllocated := s.wordsAllocated + words }

/-- Counts an allocation that did not fit and started a pass. -/
def addTrigger (s : Stats) : Stats :=
  { s with allocationTriggered := s.allocationTriggered + 1 }

/-- Counts a completed pass. -/
def addPass (s : Stats) (objects wordsBefore wordsAfter : Nat) (pause : Pause) : Stats :=
  { s with
    cycles := s.cycles + 1
    objectsCopied := s.objectsCopied + objects
    wordsCopied := s.wordsCopied + wordsAfter
    lastObjectsCopied := objects
    lastWordsCopied := wordsAfter
    wordsReclaimed := s.wordsReclaimed + (wordsBefore - wordsAfter)
    totalPauseMicros := min (s.totalPauseMicros + pause.micros) counterLimit
    maxPauseMicros := max s.maxPauseMicros pause.micros }

/-- The mean pause, zero before the first pass. -/
def meanPauseMicros (s : Stats) : Nat := s.totalPauseMicros / s.cycles

/-- The counters with their names, in the order they are shown. -/
def fields (s : Stats) : List (String × String) :=
  [("cycles", s.cycles), ("allocation_triggered", s.allocationTriggered),
    ("allocations", s.allocations), ("words_allocated", s.wordsAllocated),
    ("objects_copied", s.objectsCopied), ("words_copied", s.wordsCopied),
    ("last_objects_copied", s.lastObjectsCopied), ("last_words_copied", s.lastWordsCopied),
    ("words_reclaimed", s.wordsReclaimed), ("total_pause_us", s.totalPauseMicros),
    ("max_pause_us", s.maxPauseMicros)].map fun f => (f.1, toString (f.2 : Nat))

/-- The counters as a JSON object. -/
def json (s : Stats) : String := Text.jsonObject s.fields

/-- How the counters are shown to a programmer. -/
def text (s : Stats) : String := Text.record "GcStats" s.fields

end Stats

end Semispace

import Semispace.Decimal.Notation
import Semispace.Decimal.Places
import Semispace.Text.Json
/-!
# Events of a collection

A pass reports when it starts, what it moved, which half is active afterwards, how it ended and how
full the heap then is; an allocation that does not fit reports first. Each event has a level and two
texts, one for people and one JSON line.
-/

namespace Semispace

/-- How important a report is, the most important first. -/
inductive Level
  | error
  | warn
  | info
  | debug
  | trace
  deriving DecidableEq, Repr

namespace Level

/-- The position of a level, from the most important. -/
def rank : Level → Nat
  | error => 0
  | warn => 1
  | info => 2
  | debug => 3
  | trace => 4

/-- The name of a level in front of a report. -/
def name : Level → String
  | error => "ERROR"
  | warn => "WARN"
  | info => "INFO"
  | debug => "DEBUG"
  | trace => "TRACE"

/-- The name of a level in the text of a record. -/
def text : Level → String
  | error => "Error"
  | warn => "Warn"
  | info => "Info"
  | debug => "Debug"
  | trace => "Trace"

end Level

/-- Something that happened to the heap. -/
inductive Event
  | cycleStart (cycle : Nat) (reason : String) (liveRoots : Nat)
  | cycleEnd (cycle : Nat) (durationMs : Float) (wordsLive wordsReclaimed : Nat)
  | heapStats (usedWords spaceWords : Nat) (utilization : Float)
  | relocateStats (objects words entries : Nat)
  | allocationFailure (requested available : Nat)
  | halvesSwapped (active vacated : String)

namespace Event

/-- The level of an event. -/
def level : Event → Level
  | allocationFailure .. => .warn
  | cycleStart .. | cycleEnd .. | heapStats .. => .info
  | relocateStats .. | halvesSwapped .. => .debug

/-- The event as a line for people. -/
def text : Event → String
  | cycleStart cycle reason liveRoots =>
    s!"[GC] Cycle {cycle} started (reason: {reason}, {liveRoots} live roots)"
  | cycleEnd cycle durationMs wordsLive wordsReclaimed =>
    let ms := Decimal.fixed 3 durationMs
    s!"[GC] Cycle {cycle} completed ({ms}ms, {wordsLive} words live, {wordsReclaimed} words reclaimed)"
  | heapStats usedWords spaceWords utilization =>
    let percent := Decimal.fixed 1 (utilization * 100.0)
    s!"[GC] Heap: {usedWords}/{spaceWords} words ({percent}% utilized)"
  | relocateStats objects words entries =>
    s!"[GC] Relocated: {objects} objects ({words} words moved, {entries} table entries)"
  | allocationFailure requested available =>
    s!"[GC] Allocation failure: {requested} words requested, {available} available"
  | halvesSwapped active vacated =>
    s!"[GC] Spaces swapped: {active} active, {vacated} protected"

/-- The event as a JSON object, its kind first. -/
def json : Event → String
  | cycleStart cycle reason liveRoots => Text.jsonObject [
      ("type", Text.jsonString "cycle_start"), ("cycle", toString cycle),
      ("reason", Text.jsonString reason), ("live_roots", toString liveRoots)]
  | cycleEnd cycle durationMs wordsLive wordsReclaimed => Text.jsonObject [
      ("type", Text.jsonString "cycle_end"), ("cycle", toString cycle),
      ("duration_ms", Decimal.jsonNumber durationMs), ("words_live", toString wordsLive),
      ("words_reclaimed", toString wordsReclaimed)]
  | heapStats usedWords spaceWords utilization => Text.jsonObject [
      ("type", Text.jsonString "heap_stats"), ("used_words", toString usedWords),
      ("space_words", toString spaceWords), ("utilization", Decimal.jsonNumber utilization)]
  | relocateStats objects words entries => Text.jsonObject [
      ("type", Text.jsonString "relocate_stats"), ("relocated_count", toString objects),
      ("words_moved", toString words), ("table_entries", toString entries)]
  | allocationFailure requested available => Text.jsonObject [
      ("type", Text.jsonString "allocation_failure"), ("requested", toString requested),
      ("available", toString available)]
  | halvesSwapped active vacated => Text.jsonObject [
      ("type", Text.jsonString "protection_change"), ("active", Text.jsonString active),
      ("protected", Text.jsonString vacated)]

end Event

end Semispace

import Semispace.Stats
import Semispace.Text.Record
/-!
# Why a pass runs

A pass is asked for, or an allocation that does not fit starts it.
-/

namespace Semispace

/-- What started a pass. -/
inductive Reason
  | explicit
  | allocationFailure (requested available : Nat)
  deriving DecidableEq, Repr

namespace Reason

/-- A reason as part of a report. -/
def message : Reason → String
  | explicit => "explicit"
  | allocationFailure requested available =>
    s!"allocation of {requested} words ({available} available)"

/-- How a reason is shown to a programmer. -/
def text : Reason → String
  | explicit => "Explicit"
  | allocationFailure requested available => Text.record "AllocationFailure"
      [("requested", toString requested), ("available", toString available)]

end Reason

/-- What one completed pass did. -/
structure CycleSummary where
  /-- Passes completed so far, this one included. -/
  cycle : Nat
  reason : Reason
  /-- Roots taken to be live. -/
  liveRoots : Nat
  objectsCopied : Nat
  /-- Words in use before the pass. -/
  wordsBefore : Nat
  /-- Words in use after it. -/
  wordsAfter : Nat
  pause : Pause
  deriving DecidableEq, Repr

/-- Words that the pass freed. -/
def CycleSummary.wordsReclaimed (s : CycleSummary) : Nat :=
  s.wordsBefore - s.wordsAfter

end Semispace

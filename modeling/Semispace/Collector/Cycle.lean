import Semispace.Collector.Basic
import Semispace.Relocation.Pass
/-!
# Collection

A pass opens the inactive half, relocates the live roots, scans the copies, exchanges the halves and
continues allocating after the last copy. If anything fails in between, the halves keep their roles,
the inactive one stays open, the roots relocated so far stay relocated, and the collector is
poisoned.
-/

namespace Semispace

/-- The report of a copy. -/
def Copy.notice (c : Copy) : Notice :=
  .objectCopied c.tag c.words c.source c.target

namespace Collector

/-- Relocates the `live` lowest roots and all that they reach. -/
def relocateLive (c : Collector) (live : Nat) : List Ref × EStateM.Result Error Pass Unit :=
  let pass := Pass.ofArena c.arena.openInactive c.cursor.top
  let relocated := Pass.relocateRoots (c.roots.bottom live) pass
  match relocated.2 with
  | .error e p => (relocated.1, .error e p)
  | .ok _ p => (relocated.1, Pass.scan.run p)

theorem length_relocateLive (c : Collector) (live : Nat) :
    (c.relocateLive live).1.length = (c.roots.bottom live).length := by
  unfold relocateLive
  dsimp only
  split <;> simp

theorem length_relocateLive_le (c : Collector) (live : Nat) :
    (c.relocateLive live).1.length ≤ c.roots.top :=
  c.length_relocateLive live ▸ c.roots.length_bottom_le live

end Collector

namespace Mutator

/-- Runs a pass: relocates what is live and exchanges the halves. -/
def runPass (live : Nat) : Mutator PassSummary := do
  let c ← collector
  let relocated := c.relocateLive live
  have roots_le : relocated.1.length ≤ c.roots.top := c.length_relocateLive_le live
  let pass := endState relocated.2
  update fun _ => { c with
    arena := pass.arena
    roots := c.roots.setBottom relocated.1 roots_le }
  modify fun s => { s with
    journal := s.journal.reportAll (pass.copier.copies.toList.map Copy.notice) }
  match relocated.2 with
  | .error e _ => throw e
  | .ok _ _ =>
    let arena := pass.arena.swap
    update fun c => { c with arena, cursor := c.cursor.resetTo pass.cursor.top }
    report (.halvesExchanged arena.active arena.inactive)
    return pass.summary

/-- The events of a completed pass. -/
def emitCompleted (cycle : CycleSummary) (pass : PassSummary) : Mutator Unit := do
  let c ← collector
  emit (.relocateStats pass.objectsCopied pass.wordsCopied pass.tableEntries)
  emit (.halvesSwapped c.arena.active.name c.arena.inactive.name)
  emit (.cycleEnd cycle.cycle cycle.pause.millis cycle.wordsAfter cycle.wordsReclaimed)
  emit (.heapStats c.usedWords c.arena.spaceWords c.utilization)

/-- Runs a pass with its reports and counters, and poisons the collector when it fails. Time is not
observed here, so a pass counts as taking none. -/
def runCycle (live : Nat) (reason : Reason) : Mutator CycleSummary := do
  let before ← collector
  let cycle := before.cycles + 1
  update fun c => { c with phase := .collecting }
  emit (.cycleStart cycle reason.message live)
  match ← observing (runPass live) with
  | .error e =>
    update fun c => { c with phase := .poisoned }
    report (.passFailed cycle e)
    throw e
  | .ok pass =>
    let summary : CycleSummary := {
      cycle
      reason
      liveRoots := live
      objectsCopied := pass.objectsCopied
      wordsBefore := before.usedWords
      wordsAfter := pass.wordsCopied
      pause := .none }
    update fun c => { c with
      phase := .idle
      cycles := cycle
      stats := c.stats.addPass pass.objectsCopied before.usedWords pass.wordsCopied summary.pause }
    emitCompleted summary pass
    return summary

/-- Collects with the `live` lowest roots live; the others are left as they are. -/
def collect (live : Nat) : Mutator CycleSummary := do
  ensureUsable
  let top := (← collector).roots.top
  if top < live then throw (.invalidArgument (.liveRoots live top))
  else runCycle live .explicit

end Mutator

end Semispace

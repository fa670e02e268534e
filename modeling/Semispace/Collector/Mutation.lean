import Semispace.Collector.Access
import Semispace.Collector.Cycle
/-!
# Changing the heap

Objects are allocated below the capacity of the active half; an allocation that does not fit runs
one pass over the whole root stack and is tried again. References go on the root stack, into slots
and into words only after they were found good. A poisoned collector refuses all of it.
-/

namespace Semispace.Mutator

/-! ## Roots -/

/-- Puts a reference on the root stack. -/
def pushSlot (r : Ref) : Mutator Unit := do
  let c ← collector
  match c.roots.push r with
  | .ok roots => update fun c => { c with roots }
  | .error e =>
    report (.rootsFull c.roots.capacity)
    throw e

/-- Puts a reference to an object on the root stack. -/
def rootPush (r : Ref) : Mutator Unit := do
  ensureUsable
  let _ ← (← collector).checkObject r
  pushSlot r

/-- Takes the top root, at its current address. -/
def rootPop : Mutator Ref := do
  ensureUsable
  let (r, roots) ← (← collector).roots.pop
  update fun c => { c with roots }
  return r

/-! ## Allocation -/

/-- Makes room for `words` words, by a pass if need be. -/
def ensureRoom (words : Nat) : Mutator Unit := do
  let c ← collector
  if c.cursor.fits words then
    return ()
  else
    let available := c.cursor.remaining
    emit (.allocationFailure words available)
    update fun c => { c with stats := c.stats.addTrigger }
    let _ ← runCycle c.roots.top (.allocationFailure words available)
    let c ← collector
    if c.cursor.fits words then
      return ()
    else
      report (.exhausted words c.cursor.remaining)
      throw (.outOfMemory words c.cursor.remaining)

/-- Hands out `words` zeroed words of the active half. -/
def allocate (words : Nat) : Mutator Ref := do
  ensureUsable
  if words = 0 then
    throw (.invalidSize words)
  else
    ensureRoom words
    let c ← collector
    let (offset, cursor) ← c.cursor.take words
    update fun c => { c with cursor }
    let loc : Location := ⟨c.arena.active, offset⟩
    let arena ← c.arena.zero loc words
    update fun c => { c with arena, stats := c.stats.addAllocation words }
    match Ref.ofWord? (arena.address loc) with
    | none => throw (.internal .nullAllocation)
    | some r => return r

/-- Writes words to consecutive locations. -/
def writeWords : Location → List Word → Mutator Unit
  | _, [] => pure ()
  | loc, w :: ws => do
    let arena ← (← collector).arena.write loc w
    update fun c => { c with arena }
    writeWords (loc.add 1) ws

/-- Fills the object referred to from its first word on. -/
def fill (r : Ref) (words : List Word) : Mutator Unit := do
  writeWords (← (← collector).wordLocation r 0) words

/-- Allocates a scalar object. -/
def allocScalar (tag : Tag) (second : Word) : Mutator Ref := do
  let r ← allocate headerWords
  fill r [tag.word, second]
  return r

/-- Allocates an integer. -/
def allocInt (v : Int64) : Mutator Ref := allocScalar .int v.toUInt64

/-- Allocates a boolean. -/
def allocBool (v : Bool) : Mutator Ref := allocScalar .bool (if v then 1 else 0)

/-- Puts references on the root stack, all or none. -/
def pushAll (rs : List Ref) : Mutator Unit := do
  let base := (← collector).roots.top
  match ← observing (rs.forM pushSlot) with
  | .ok _ => return ()
  | .error e =>
    update fun c => { c with roots := c.roots.truncate base }
    throw e

/-- A slot of a vector, its reference replaced by the next of a list. -/
def takeNext : Option Ref → StateM (List Ref) (Option Ref)
  | none => pure none
  | some _ => modifyGet fun rs => (rs.head?, rs.tail)

/-- The slots of a vector, their references replaced in order by those of a list. -/
def refill (slots : List (Option Ref)) (rs : List Ref) : List (Option Ref) :=
  ((slots.mapM takeNext).run rs).1

/-- Allocates a vector. Its elements are roots while room is made, so a pass moves them along. -/
def allocVector (elements : List (Option Ref)) : Mutator Ref := do
  ensureUsable
  let c ← collector
  let refs := elements.filterMap id
  refs.forM fun r => do
    let _ ← c.checkObject r
  pushAll refs
  let allocated ← observing (allocate (Header.vectorWords elements.length))
  let rooted := (← collector).roots.toList.drop c.roots.top
  update fun d => { d with roots := d.roots.truncate c.roots.top }
  let r ← allocated
  let slots := (refill elements rooted).map Ref.slotWord
  fill r (Tag.vector.word :: UInt64.ofNat elements.length :: slots)
  return r

/-! ## Writing -/

/-- Stores a reference, or nothing, in a slot of a vector. -/
def vectorSet (r : Ref) (i : Nat) (value : Option Ref) : Mutator Unit := do
  ensureUsable
  let c ← collector
  let loc ← c.slotLocation r i
  match value with
  | none => pure ()
  | some v =>
    let _ ← c.checkObject v
  let arena ← c.arena.write loc (Ref.slotWord value)
  update fun c => { c with arena }

/-- Overwrites a word of an object, whatever it means. -/
def writeWord (r : Ref) (i : Nat) (w : Word) : Mutator Unit := do
  ensureUsable
  let c ← collector
  let arena ← c.arena.write (← c.wordLocation r i) w
  update fun c => { c with arena }

/-- Empties the history of the logger, or lets events through to it or not. -/
def updateLogger (f : Logger → Logger) : Mutator Unit :=
  update fun c => { c with logger := f c.logger }

end Semispace.Mutator

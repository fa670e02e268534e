import Semispace.Heap.Cursor
import Semispace.Object.Header
import Semispace.Step
/-!
# Copying one object

An object is copied word for word to the next free words of a half. Room is taken before the words
are moved, and every copy made is noted.
-/

namespace Semispace

/-- One copied object. -/
structure Copy where
  tag : Tag
  words : Nat
  source : Word
  target : Word
  deriving DecidableEq, Repr

/-- Objects on their way to another half. -/
structure Copier where
  arena : Arena
  /-- The words taken in the half copied to. -/
  cursor : Cursor
  /-- The copies made, in order. -/
  copies : Array Copy

/-- An operation on a copier. Its effects up to an error remain. -/
abbrev CopierM := EStateM Error Copier

namespace Copier

/-- A copier with all of a half to fill. -/
def ofArena (a : Arena) : Copier := ⟨a, .ofCapacity a.spaceWords, #[]⟩

/-- Objects copied. -/
def objectsCopied (c : Copier) : Nat := c.copies.size

/-- Words copied. -/
def wordsCopied (c : Copier) : Nat := c.copies.foldl (fun n k => n + k.words) 0

/-- Copies the object at a location to the next free words of a half. -/
def copyObject (destination : Half) (source : Location) : CopierM Location := do
  let c ← get
  let header ← Header.read c.arena source
  match c.cursor.take header.size with
  | .error _ =>
    throw (.internal
      (.destinationExhausted (c.arena.address source) header.size c.cursor.remaining))
  | .ok (offset, cursor) =>
    set { c with cursor }
    let target : Location := ⟨destination, offset⟩
    let arena ← c.arena.copy source target header.size
    let copy : Copy :=
      ⟨header.tag, header.size, arena.address source, arena.address target⟩
    set { c with cursor, arena, copies := c.copies.push copy }
    return target

/-- The half copied to keeps its size. -/
theorem keeps_capacity_copyObject (destination : Half) (source : Location) :
    Keeps (fun c : Copier => c.cursor.capacity) (copyObject destination source) := by
  intro c
  simp only [copyObject, EStateM.run_bind, EStateM.run_get]
  cases Header.read c.arena source with
  | error e => rfl
  | ok header =>
    simp only [run_liftM_ok]
    cases ht : c.cursor.take header.size with
    | error e => rfl
    | ok taken =>
      obtain ⟨offset, cursor⟩ := taken
      have hc : cursor.capacity = c.cursor.capacity := (Cursor.take_eq_ok_iff.mp ht).2.2.2
      simp only [EStateM.run_bind, EStateM.run_set]
      cases c.arena.copy source ⟨destination, offset⟩ header.size with
      | error e => exact hc
      | ok arena => exact hc

end Copier

end Semispace

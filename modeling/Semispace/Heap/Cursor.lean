import Semispace.Error
/-!
# Allocation cursors

A cursor hands out consecutive words of a half. It only moves forward until it is reset, and a
request that does not fit leaves it where it is.
-/

namespace Semispace

/-- How much of a half is in use. -/
structure Cursor where
  top : Nat
  capacity : Nat
  top_le : top ≤ capacity

namespace Cursor

/-- A cursor at the start of `capacity` words. -/
def ofCapacity (capacity : Nat) : Cursor := ⟨0, capacity, Nat.zero_le _⟩

/-- Words still free. -/
def remaining (c : Cursor) : Nat := c.capacity - c.top

/-- Whether no word is free. -/
def isFull (c : Cursor) : Bool := c.top == c.capacity

/-- Whether `n` more words are free. -/
def fits (c : Cursor) (n : Nat) : Bool := c.top + n ≤ c.capacity

/-- Takes `n` words and tells the offset of the first. -/
def take (c : Cursor) (n : Nat) : Except Error (Nat × Cursor) :=
  if h : c.top + n ≤ c.capacity then .ok (c.top, ⟨c.top + n, c.capacity, h⟩)
  else .error (.outOfMemory n c.remaining)

/-- Back to the start. -/
def reset (c : Cursor) : Cursor := ⟨0, c.capacity, Nat.zero_le _⟩

/-- Continues after `top` words in use, or after all of them when there are fewer. -/
def resetTo (c : Cursor) (top : Nat) : Cursor :=
  ⟨min top c.capacity, c.capacity, Nat.min_le_right _ _⟩

theorem take_eq_ok_iff {c c' : Cursor} {n i : Nat} :
    c.take n = .ok (i, c') ↔
      c.top + n ≤ c.capacity ∧ i = c.top ∧ c'.top = c.top + n ∧ c'.capacity = c.capacity := by
  obtain ⟨top', capacity', h'⟩ := c'
  unfold take
  split
  · simp [Prod.ext_iff]; grind
  · simp; grind

end Cursor

end Semispace

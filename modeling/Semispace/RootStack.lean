import Semispace.Error
import Semispace.Machine
import Semispace.Text.Record
/-!
# The root stack

The references a program declares live, bottom first, up to a capacity fixed at start. An operation
that is refused leaves the stack as it was.
-/

namespace Semispace

/-- A bounded stack of references. -/
structure RootStack where
  /-- The entries, bottom first. -/
  slots : Array Ref
  capacity : Nat
  size_le : slots.size ≤ capacity

namespace RootStack

/-- Bytes that a block of storage takes besides its contents. -/
def blockBytes : Nat := 24

/-- An empty stack, with storage for all its entries reserved. -/
def ofCapacity (machine : Machine) (capacity : Nat) : Except Error RootStack :=
  if machine.grants (capacity * wordBytes + blockBytes) then .ok ⟨#[], capacity, Nat.zero_le _⟩
  else .error (.rootStackAllocation capacity)

/-- Entries on the stack. -/
def top (s : RootStack) : Nat := s.slots.size

/-- Whether there is no entry. -/
def isEmpty (s : RootStack) : Bool := s.slots.isEmpty

/-- The entries, bottom first. -/
def toList (s : RootStack) : List Ref := s.slots.toList

/-- The entry on top. -/
def peek? (s : RootStack) : Option Ref := s.slots.back?

/-- The entry at an index from the bottom. -/
def get? (s : RootStack) (i : Nat) : Option Ref := s.slots[i]?

/-- Puts an entry on top. -/
def push (s : RootStack) (r : Ref) : Except Error RootStack :=
  if h : s.slots.size < s.capacity then
    .ok ⟨s.slots.push r, s.capacity, by rw [Array.size_push]; exact h⟩
  else .error (.rootStackOverflow s.capacity)

/-- Takes the entry on top. -/
def pop (s : RootStack) : Except Error (Ref × RootStack) :=
  match s.slots.back? with
  | none => .error .rootStackEmpty
  | some r => .ok (r, ⟨s.slots.pop, s.capacity, by rw [Array.size_pop]; exact Nat.le_trans (Nat.sub_le ..) s.size_le⟩)

/-- Drops the entries from an index on. -/
def truncate (s : RootStack) (n : Nat) : RootStack :=
  ⟨s.slots.take n, s.capacity, by have := s.size_le; simp; omega⟩

/-- The entries below an index. -/
def bottom (s : RootStack) (n : Nat) : List Ref := s.toList.take n

/-- Replaces the entries below `rs.length` by `rs`. -/
def setBottom (s : RootStack) (rs : List Ref) (h : rs.length ≤ s.top) : RootStack :=
  ⟨(rs ++ s.toList.drop rs.length).toArray, s.capacity, by
    have := s.size_le; simp [top, toList] at *; omega⟩

/-- How a stack is shown to a programmer. -/
def text (s : RootStack) : String :=
  Text.record "RootStack" [
    ("slots", Text.sequence (s.toList.map Ref.text)),
    ("capacity", toString s.capacity)]

/-! ## The stack as a list -/

theorem eq_of_toList {s s' : RootStack} (h : s'.toList = s.toList) (hc : s'.capacity = s.capacity) : s' = s := by
  obtain ⟨⟨xs⟩, n, hn⟩ := s
  obtain ⟨⟨ys⟩, m, hm⟩ := s'
  cases h
  cases hc
  rfl

theorem bottom_top (s : RootStack) : s.bottom s.top = s.toList := List.take_length

theorem length_bottom_le (s : RootStack) (n : Nat) : (s.bottom n).length ≤ s.top := by
  unfold bottom
  rw [List.length_take]
  exact Nat.min_le_right ..

theorem toList_push {s s' : RootStack} {r : Ref} (h : s.push r = .ok s') :
    s'.toList = s.toList ++ [r] ∧ s'.capacity = s.capacity := by
  unfold push at h
  split at h
  · cases h; simp [toList]
  · cases h

theorem push_eq_error_iff {s : RootStack} {r : Ref} {e : Error} :
    s.push r = .error e ↔ s.capacity ≤ s.top ∧ e = .rootStackOverflow s.capacity := by
  unfold push top
  split <;> grind

theorem toList_pop {s s' : RootStack} {r : Ref} (h : s.pop = .ok (r, s')) :
    s.toList = s'.toList ++ [r] ∧ s'.capacity = s.capacity := by
  unfold pop at h
  split at h
  · cases h
  · next hr =>
    cases h
    refine ⟨?_, rfl⟩
    have hl : s.slots.toList.getLast? = some r := by simpa using hr
    obtain ⟨ys, hy⟩ := List.getLast?_eq_some_iff.mp hl
    simp [toList, hy]

@[simp] theorem toList_truncate (s : RootStack) (n : Nat) :
    (s.truncate n).toList = s.toList.take n := by
  simp [truncate, toList]

@[simp] theorem toList_setBottom (s : RootStack) (rs : List Ref) (h : rs.length ≤ s.top) :
    (s.setBottom rs h).toList = rs ++ s.toList.drop rs.length := by
  simp [setBottom, toList]

end RootStack

end Semispace

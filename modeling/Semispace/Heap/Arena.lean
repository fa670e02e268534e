import Semispace.Heap.Layout
import Semispace.Heap.Memory
import Semispace.Text.Record
/-!
# Two guarded halves

An arena is mapped memory split into an active half, always open, and another that is closed except
during a collection. Every access names a run of words of one half; it succeeds exactly when the run
lies in the usable part and the half is open, and a refused access changes nothing. `Arena.word` is
the view: the word at a location whatever the rights to it.
-/

namespace Semispace

/-- Both halves of the heap, their roles and their contents. -/
structure Arena where
  layout : Layout
  /-- The half that serves allocations. -/
  active : Half
  /-- The other half is open too. -/
  inactiveOpen : Bool
  memory : Memory

namespace Arena

/-- Fresh memory for a heap of `heapWords` words, with the low half active. -/
def map (machine : Machine) (heapWords : Nat) : Except Error Arena :=
  (Layout.plan machine heapWords).map fun layout => ⟨layout, .low, false, .empty⟩

/-- Usable words of one half. -/
def spaceWords (a : Arena) : Nat := a.layout.spaceWords

/-- The half that does not serve allocations. -/
def inactive (a : Arena) : Half := a.active.other

/-- Whether a half is closed to every access. -/
def isClosed (a : Arena) (h : Half) : Bool :=
  h != a.active && !a.inactiveOpen

/-- Whether a half can be read and written. -/
def isOpen (a : Arena) (h : Half) : Bool :=
  !a.isClosed h

/-- The address of a location. -/
def address (a : Arena) (loc : Location) : Word := a.layout.address loc

/-- The usable word an address is the address of. -/
def locate (a : Arena) (w : Word) : Option Location := a.layout.locate w

/-- The word at a location. -/
def word (a : Arena) (loc : Location) : Word :=
  a.memory.read (a.layout.cell loc)

/-- Whether `n` words from a location on can be accessed; if not, the range is the first complaint
and the rights the second. -/
def checkRange (a : Arena) (loc : Location) (n : Nat) : Except Error Unit :=
  if a.spaceWords < loc.offset + n then .error (.invalidReference (a.address loc))
  else if a.isClosed loc.half then .error (.protectedAccess (a.address loc))
  else .ok ()

/-! ## Access -/

/-- Reads one word. -/
def read (a : Arena) (loc : Location) : Except Error Word := do
  a.checkRange loc 1
  return a.word loc

/-- Writes one word. -/
def write (a : Arena) (loc : Location) (w : Word) : Except Error Arena := do
  a.checkRange loc 1
  return { a with memory := a.memory.write (a.layout.cell loc) w }

/-- Zeroes `n` words. -/
def zero (a : Arena) (loc : Location) (n : Nat) : Except Error Arena := do
  a.checkRange loc n
  return { a with memory := a.memory.zero (a.layout.cell loc) n }

/-- Copies `n` words from one half to the other. -/
def copy (a : Arena) (source target : Location) (n : Nat) : Except Error Arena := do
  if source.half = target.half then
    throw (.internal (.copyWithinHalf source.half))
  a.checkRange source n
  a.checkRange target n
  return { a with memory := a.memory.copy (a.layout.cell source) (a.layout.cell target) n }

/-! ## Roles of the halves -/

/-- Opens the inactive half. -/
def openInactive (a : Arena) : Arena :=
  { a with inactiveOpen := true }

/-- Exchanges the roles of the halves and closes the one that was active. -/
def swap (a : Arena) : Arena :=
  { a with active := a.inactive, inactiveOpen := false }

/-- How an arena is shown to a programmer. -/
def text (a : Arena) : String :=
  Text.record "HeapArena" [
    ("base", Word.hex (UInt64.ofNat a.layout.base)),
    ("space_words", toString a.spaceWords),
    ("active", a.active.text),
    ("inactive_open", toString a.inactiveOpen)]

/-! ## What the operations leave -/

@[simp] theorem isOpen_active (a : Arena) : a.isOpen a.active = true := by
  simp [isOpen, isClosed]

theorem isOpen_inactive (a : Arena) : a.isOpen a.inactive = a.inactiveOpen := by
  simp [isOpen, isClosed, inactive]

theorem checkRange_eq_ok_iff {a : Arena} {loc : Location} {n : Nat} :
    a.checkRange loc n = .ok () ↔ loc.offset + n ≤ a.spaceWords ∧ a.isOpen loc.half = true := by
  unfold checkRange isOpen
  split
  · simp; omega
  · split <;> simp_all

theorem checkRange_of_ok {a : Arena} {loc : Location} {n : Nat}
    (h : loc.offset + n ≤ a.spaceWords) (ho : a.isOpen loc.half = true) :
    a.checkRange loc n = .ok () :=
  checkRange_eq_ok_iff.mpr ⟨h, ho⟩

theorem read_eq_ok_iff {a : Arena} {loc : Location} {w : Word} :
    a.read loc = .ok w ↔ loc.offset < a.spaceWords ∧ a.isOpen loc.half = true ∧ a.word loc = w := by
  have h : a.checkRange loc 1 = .ok () ↔ loc.offset < a.spaceWords ∧ a.isOpen loc.half = true :=
    checkRange_eq_ok_iff
  unfold read
  cases hc : a.checkRange loc 1 with
  | error e => simp [bind, Except.bind]; grind
  | ok _ => simp [bind, Except.bind, pure, Except.pure]; grind

theorem word_write {a b : Arena} {loc : Location} {w : Word} (h : a.write loc w = .ok b)
    {loc' : Location} (h' : loc'.offset < a.spaceWords) :
    b.word loc' = if loc' = loc then w else a.word loc' := by
  unfold write at h
  cases hc : a.checkRange loc 1 with
  | error e => simp [hc, bind, Except.bind] at h
  | ok _ =>
    simp only [hc, bind, Except.bind, pure, Except.pure, Except.ok.injEq] at h
    subst h
    have hl : loc.offset < a.spaceWords := (checkRange_eq_ok_iff.mp hc).1
    simp only [word, Memory.read_write]
    by_cases he : loc' = loc
    · simp [he]
    · have : a.layout.cell loc ≠ a.layout.cell loc' :=
        fun hcell => he (Layout.cell_injective h' hl hcell.symm)
      simp [he, this]

end Arena

end Semispace

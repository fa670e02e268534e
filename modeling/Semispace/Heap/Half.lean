/-!
# The two halves and the places in them

Objects live in one half of the heap at a time. A location is a half and a word offset from its
start.
-/

namespace Semispace

/-- One of the two halves of the heap. -/
inductive Half
  | low
  | high
  deriving DecidableEq, Repr, Inhabited

namespace Half

/-- The half that is not this one. -/
def other : Half → Half
  | low => high
  | high => low

/-- The number of halves below this one. -/
def index : Half → Nat
  | low => 0
  | high => 1

/-- The name of a half in messages. -/
def name : Half → String
  | low => "low"
  | high => "high"

/-- The name of a half in the text of a record. -/
def text : Half → String
  | low => "Low"
  | high => "High"

@[simp] theorem other_other (h : Half) : h.other.other = h := by cases h <;> rfl

@[simp] theorem other_ne (h : Half) : h.other ≠ h := by cases h <;> simp [other]

@[simp] theorem ne_other (h : Half) : h ≠ h.other := by cases h <;> simp [other]

theorem eq_or_eq_other (h k : Half) : k = h ∨ k = h.other := by cases h <;> cases k <;> simp [other]

end Half

/-- A word of the heap: its half and its offset from the start of the half. -/
structure Location where
  half : Half
  offset : Nat
  deriving DecidableEq, Repr, Inhabited

/-- The location `n` words further on. -/
def Location.add (loc : Location) (n : Nat) : Location :=
  { loc with offset := loc.offset + n }

@[simp] theorem Location.add_half (loc : Location) (n : Nat) : (loc.add n).half = loc.half := rfl

@[simp] theorem Location.add_offset (loc : Location) (n : Nat) :
    (loc.add n).offset = loc.offset + n := rfl

end Semispace

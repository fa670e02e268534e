/-!
# Words and references

The heap is made of 64-bit words. An address is a word, and a reference is an address other than
zero: zero is the word of a slot that refers to nothing. `Ref.ofWord?` and `Ref.slotWord` are
inverse to each other.
-/

namespace Semispace

/-- A heap word. Arithmetic on words wraps; offsets and sizes are naturals. -/
abbrev Word := UInt64

/-- Bytes in a word. -/
def wordBytes : Nat := 8

/-- A word in hexadecimal, as addresses are written. -/
def Word.hex (w : Word) : String :=
  "0x" ++ String.ofList (Nat.toDigits 16 w.toNat)

/-- A reference to a heap object: its address, never zero. -/
structure Ref where
  addr : Word
  ne_zero : addr ≠ 0
  deriving DecidableEq, Repr

namespace Ref

instance : Inhabited Ref := ⟨⟨1, by decide⟩⟩

/-- The reference a slot word stands for. -/
def ofWord? (w : Word) : Option Ref :=
  if h : w = 0 then none else some ⟨w, h⟩

/-- The word stored in a slot for an optional reference. -/
def slotWord : Option Ref → Word
  | none => 0
  | some r => r.addr

/-- How a reference is shown to a programmer. -/
def text (r : Ref) : String :=
  "ObjRef(" ++ r.addr.hex ++ ")"

@[simp] theorem ofWord?_zero : ofWord? 0 = none := rfl

theorem ofWord?_of_ne {w : Word} (h : w ≠ 0) : ofWord? w = some ⟨w, h⟩ := by
  simp [ofWord?, h]

@[simp] theorem ofWord?_addr (r : Ref) : ofWord? r.addr = some r :=
  ofWord?_of_ne r.ne_zero

@[simp] theorem slotWord_ofWord? (w : Word) : slotWord (ofWord? w) = w := by
  by_cases h : w = 0
  · simp [h, slotWord]
  · simp [ofWord?_of_ne h, slotWord]

@[simp] theorem ofWord?_slotWord (o : Option Ref) : ofWord? (slotWord o) = o := by
  cases o <;> simp [slotWord]

theorem eq_of_addr {a b : Ref} (h : a.addr = b.addr) : a = b := by
  cases a
  cases b
  cases h
  rfl

theorem slotWord_injective {a b : Option Ref} (h : slotWord a = slotWord b) : a = b := by
  rw [← ofWord?_slotWord a, h, ofWord?_slotWord]

end Ref

end Semispace

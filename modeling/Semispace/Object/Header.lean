import Semispace.Heap.Arena
import Semispace.Text.Record
/-!
# Object headers

An object starts with two words: its tag, and a value or the number of slots that follow. A header
read from the heap is valid when its tag is known and the whole object lies in its half.
-/

namespace Semispace

/-- Words before the first slot of a vector; a scalar object has no others. -/
def headerWords : Nat := 2

/-- The first two words of an object, decoded. -/
structure Header where
  tag : Tag
  /-- The value of a scalar, the slot count of a vector. -/
  second : Word
  deriving DecidableEq, Repr

namespace Header

/-- The header that two words make, if the first is a tag. -/
def decode (first second : Word) : Option Header :=
  (Tag.ofWord? first).map fun tag => ⟨tag, second⟩

/-- Words of the whole object. -/
def size (h : Header) : Nat :=
  match h.tag with
  | .vector => h.second.toNat + headerWords
  | _ => headerWords

/-- `size`, unless it takes more than 64 bits. -/
def size? (h : Header) : Option Nat :=
  if h.size < UInt64.size then some h.size else none

/-- Slots of the object. -/
def slotCount (h : Header) : Nat :=
  match h.tag with
  | .vector => h.second.toNat
  | _ => 0

/-- Words of a vector of `n` slots. -/
def vectorWords (n : Nat) : Nat := headerWords + n

/-- Reads and validates the header of the object at a location. -/
def read (a : Arena) (loc : Location) : Except Error Header := do
  let first ← a.read loc
  let second ← a.read (loc.add 1)
  match decode first second with
  | none => throw (.corruptObject (a.address loc) (.unknownTag first))
  | some h =>
    if loc.offset + h.size ≤ a.spaceWords then return h
    else throw (.corruptObject (a.address loc) (.overrunsHalf h.tag second))

/-- How a header is shown to a programmer. -/
def text (h : Header) : String :=
  Text.record "ObjectHeader" [("tag", h.tag.name), ("word1", toString h.second)]

/-- How the result of decoding is shown to a programmer. -/
def optionText : Option Header → String
  | none => "None"
  | some h => "Some(" ++ h.text ++ ")"

theorem size_eq (h : Header) : h.size = headerWords + h.slotCount := by
  unfold size slotCount
  split <;> omega

theorem headerWords_le_size (h : Header) : headerWords ≤ h.size := by
  rw [size_eq]; omega

theorem size_pos (h : Header) : 0 < h.size :=
  Nat.lt_of_lt_of_le (by decide) h.headerWords_le_size

/-- A header is read exactly from two open words that make one, when the whole object fits. -/
theorem read_eq_ok_iff {a : Arena} {loc : Location} {h : Header} :
    read a loc = .ok h ↔
      decode (a.word loc) (a.word (loc.add 1)) = some h ∧ a.isOpen loc.half = true ∧
        loc.offset + h.size ≤ a.spaceWords := by
  have hsize := h.headerWords_le_size
  unfold headerWords at hsize
  unfold read
  constructor
  · intro hr
    cases h1 : a.read loc with
    | error e => simp [h1, bind, Except.bind] at hr
    | ok first =>
      cases h2 : a.read (loc.add 1) with
      | error e => simp [h1, h2, bind, Except.bind] at hr
      | ok second =>
        obtain ⟨_, ho, rfl⟩ := Arena.read_eq_ok_iff.mp h1
        obtain ⟨_, _, rfl⟩ := Arena.read_eq_ok_iff.mp h2
        simp only [h1, h2, bind, Except.bind] at hr
        split at hr
        · cases hr
        · next h' hd =>
          split at hr
          · next hs => cases hr; exact ⟨hd, ho, hs⟩
          · cases hr
  · rintro ⟨hd, ho, hs⟩
    have h1 : a.read loc = .ok (a.word loc) :=
      Arena.read_eq_ok_iff.mpr ⟨by omega, ho, rfl⟩
    have h2 : a.read (loc.add 1) = .ok (a.word (loc.add 1)) :=
      Arena.read_eq_ok_iff.mpr ⟨by simp; omega, ho, rfl⟩
    simp [h1, h2, bind, Except.bind, hd, hs, pure, Except.pure]

end Header

end Semispace

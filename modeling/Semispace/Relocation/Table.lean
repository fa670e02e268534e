import Std.Data.TreeMap.Lemmas
import Semispace.Word
/-!
# Forwarding tables

A table maps the old address of every object copied in a pass to its new one. An address is entered
when the first copy of it succeeds and answers for all later references, so an object is copied at
most once; entries are listed in the order they were made.
-/

namespace Semispace

/-- Old addresses with their new ones, in the order they were entered. -/
structure ForwardTable where
  entries : Array (Word × Word)
  index : Std.TreeMap Word Word
  /-- The index finds the first entry of an address. -/
  agree : ∀ w, index[w]? = (entries.find? fun e => e.1 == w).map Prod.snd

/-- Where an object is after it was looked up. -/
inductive Forwarded
  /-- It was copied on this occasion. -/
  | copied (address : Word)
  /-- It had been copied before. -/
  | existing (address : Word)
  deriving DecidableEq, Repr

namespace Forwarded

/-- The new address. -/
def address : Forwarded → Word
  | copied a | existing a => a

/-- Whether the object was copied on this occasion. -/
def isCopied : Forwarded → Bool
  | copied _ => true
  | existing _ => false

end Forwarded

namespace ForwardTable

/-- No object was copied yet. -/
def empty : ForwardTable where
  entries := #[]
  index := ∅
  agree := by simp

/-- The new address of an object. -/
def find? (t : ForwardTable) (old : Word) : Option Word := t.index[old]?

/-- The number of objects. -/
def size (t : ForwardTable) : Nat := t.entries.size

/-- Whether no object was copied. -/
def isEmpty (t : ForwardTable) : Bool := t.entries.isEmpty

/-- The entries, in the order they were made. -/
def toList (t : ForwardTable) : List (Word × Word) := t.entries.toList

/-- Enters an object that has no entry. -/
def insert (t : ForwardTable) (old new : Word) (h : t.find? old = none) : ForwardTable where
  entries := t.entries.push (old, new)
  index := t.index.insert old new
  agree := fun w => by
    rw [Std.TreeMap.getElem?_insert, Array.find?_push]
    by_cases hw : old = w
    · subst hw
      have ha : (t.entries.find? fun e => e.1 == old) = none := by
        have := (t.agree old).symm.trans h
        simpa using this
      simp [ha]
    · simp [hw, t.agree w]

/-- The new address of an object, which is copied and entered when it has none. Nothing is entered
when the copy fails. -/
def resolve {m : Type → Type} [Monad m] (t : ForwardTable) (old : Word) (copy : m Word) :
    m (Forwarded × ForwardTable) :=
  match h : t.find? old with
  | some new => pure (.existing new, t)
  | none => do
    let new ← copy
    pure (.copied new, t.insert old new h)

@[simp] theorem find?_empty (w : Word) : empty.find? w = none := by
  simp [find?, empty]

theorem find?_insert (t : ForwardTable) (old new : Word) (h : t.find? old = none) (w : Word) :
    (t.insert old new h).find? w = if old = w then some new else t.find? w := by
  simp [find?, insert, Std.TreeMap.getElem?_insert]

@[simp] theorem toList_insert (t : ForwardTable) (old new : Word) (h : t.find? old = none) :
    (t.insert old new h).toList = t.toList ++ [(old, new)] := by
  simp [toList, insert]

@[simp] theorem size_insert (t : ForwardTable) (old new : Word) (h : t.find? old = none) :
    (t.insert old new h).size = t.size + 1 := by
  simp [size, insert]

theorem find?_eq (t : ForwardTable) (w : Word) :
    t.find? w = (t.toList.find? fun e => e.1 == w).map Prod.snd := by
  simp [find?, toList, t.agree w]

end ForwardTable

end Semispace

import Semispace.Collector.Basic
import Semispace.Object.Value
/-!
# Looking at objects

A reference is good for a word when it is the address of a word of the active half and the word
asked for lies below the cursor; it is good for an object when the object there is valid and ends
below the cursor. Looking changes nothing and also works after a failed pass.
-/

namespace Semispace.Collector

/-! ## From references to locations -/

/-- The location `i` words after the one referred to. -/
def wordLocation (c : Collector) (r : Ref) (i : Nat) : Except Error Location :=
  match c.arena.locate r.addr with
  | none => .error (.invalidReference r.addr)
  | some loc =>
    if loc.half ≠ c.arena.active then .error (.protectedAccess r.addr)
    else if c.cursor.top ≤ loc.offset + i then .error (.invalidReference r.addr)
    else .ok (loc.add i)

/-- The object referred to: where it is, and its header. -/
def checkObject (c : Collector) (r : Ref) : Except Error (Location × Header) := do
  let loc ← c.wordLocation r 0
  let header ← Header.read c.arena loc
  if c.cursor.top < loc.offset + header.size then
    throw (.corruptObject r.addr .pastCursor)
  else
    return (loc, header)

/-- The header of the object referred to. -/
def header (c : Collector) (r : Ref) : Except Error Header :=
  (c.checkObject r).map Prod.snd

/-- The header of the object referred to, which has to have a certain tag. -/
def headerTagged (c : Collector) (r : Ref) (expected : Tag) : Except Error Header := do
  let header ← c.header r
  if header.tag = expected then return header
  else throw (.invalidArgument (.wrongTag expected r header.tag))

/-- The location of a slot of the vector referred to. -/
def slotLocation (c : Collector) (r : Ref) (i : Nat) : Except Error Location := do
  let (loc, header) ← c.checkObject r
  if header.tag ≠ .vector then
    throw (.invalidArgument (.wrongTag .vector r header.tag))
  else if header.slotCount ≤ i then
    throw (.invalidArgument (.slotOutOfBounds i header.slotCount))
  else
    return loc.add (headerWords + i)

/-! ## Parts of objects -/

/-- The tag of an object. -/
def tagOf (c : Collector) (r : Ref) : Except Error Tag :=
  (c.header r).map Header.tag

/-- The value of an integer. -/
def intValue (c : Collector) (r : Ref) : Except Error Int64 :=
  (c.headerTagged r .int).map fun h => h.second.toInt64

/-- The value of a boolean; every word but zero is true. -/
def boolValue (c : Collector) (r : Ref) : Except Error Bool :=
  (c.headerTagged r .bool).map fun h => h.second != 0

/-- The slot count of a vector. -/
def vectorLength (c : Collector) (r : Ref) : Except Error Nat :=
  (c.headerTagged r .vector).map Header.slotCount

/-- The reference in a slot of a vector. -/
def vectorGet (c : Collector) (r : Ref) (i : Nat) : Except Error (Option Ref) := do
  let loc ← c.slotLocation r i
  return Ref.ofWord? (← c.arena.read loc)

/-- The words of `n` locations from one on. -/
def readWords (c : Collector) (loc : Location) (n : Nat) : Except Error (List Word) :=
  (List.range n).mapM fun i => c.arena.read (loc.add i)

/-- The meaning of an object. -/
def value (c : Collector) (r : Ref) : Except Error Value := do
  let (loc, header) ← c.checkObject r
  match header.tag with
  | .int => return .int header.second.toInt64
  | .bool => return .bool (header.second != 0)
  | .vector =>
    let words ← c.readWords (loc.add headerWords) header.slotCount
    return .vector (words.map Ref.ofWord?)

/-- A word of an object by its position, the tag being word zero. -/
def readWord (c : Collector) (r : Ref) (i : Nat) : Except Error Word := do
  c.arena.read (← c.wordLocation r i)

/-- The words in use. -/
def dump (c : Collector) : Except Error (List Word) :=
  c.readWords ⟨c.arena.active, 0⟩ c.usedWords

end Semispace.Collector

import Semispace.Heap.Arena
/-!
# Plain access to mapped memory

Generated code reads and writes the heap through addresses, without the arena's checks. An access
covers eight bytes from any address on. It is served when all of them are mapped and lie in open
halves, page padding included, and faults otherwise.
-/

namespace Semispace.Arena

/-- The half that a mapped byte belongs to, when it is open. -/
def openByte (a : Arena) (byte : Nat) : Bool :=
  if byte < a.layout.spaceBytes then a.isOpen .low
  else if byte < a.layout.mappedBytes then a.isOpen .high
  else false

/-- The offset in bytes of an address from the start of the mapping, when eight bytes from it on can
be accessed. -/
def plainOffset? (a : Arena) (addr : Word) : Option Nat :=
  let base := a.layout.base
  let byte := addr.toNat - base
  if base ≤ addr.toNat ∧ a.openByte byte ∧ a.openByte (byte + (wordBytes - 1)) then some byte
  else none

/-- Reads eight bytes, the least significant first. -/
def load? (a : Arena) (addr : Word) : Option Word :=
  (a.plainOffset? addr).map fun byte =>
    let i := byte / wordBytes
    let shift := byte % wordBytes * 8
    if shift = 0 then a.memory.read i
    else (a.memory.read i >>> UInt64.ofNat shift) |||
      (a.memory.read (i + 1) <<< UInt64.ofNat (64 - shift))

/-- Writes eight bytes, the least significant first. -/
def store? (a : Arena) (addr w : Word) : Option Arena :=
  (a.plainOffset? addr).map fun byte =>
    let i := byte / wordBytes
    let shift := byte % wordBytes * 8
    if shift = 0 then { a with memory := a.memory.write i w }
    else
      let below := UInt64.ofNat shift
      let above := UInt64.ofNat (64 - shift)
      let lower := (a.memory.read i <<< above >>> above) ||| (w <<< below)
      let upper := (a.memory.read (i + 1) >>> below <<< below) ||| (w >>> above)
      { a with memory := (a.memory.write i lower).write (i + 1) upper }

end Semispace.Arena

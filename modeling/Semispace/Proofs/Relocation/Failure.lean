import Semispace.Collector.Cycle

/-!
# Why a pass fails

A pass throws errors of four kinds only: a word is no reference into the part in use, a range is
closed, a header makes no sense, or the collector itself is at fault. Only the first is not fatal.
-/

namespace Semispace

/-! ## The errors an operation can throw -/

/-- The errors of an operation that changes nothing are all of a kind. -/
def Throws {α : Type} (P : Error → Prop) (x : Except Error α) : Prop := ∀ e, x = .error e → P e

/-- The errors of an operation are all of a kind. -/
def Raises {σ α : Type} (P : Error → Prop) (x : EStateM Error σ α) : Prop :=
  ∀ s e s', x.run s = .error e s' → P e

section
variable {σ α β : Type} {P : Error → Prop}

theorem Throws.ok (a : α) : Throws P (.ok a) := fun _ h => by cases h

theorem Throws.error {e : Error} (h : P e) : Throws P (.error e : Except Error α) := fun _ he => by cases he; exact h

theorem Throws.imp {Q : Error → Prop} {x : Except Error α} (h : Throws P x) (hq : ∀ e, P e → Q e) : Throws Q x :=
  fun e he => hq e (h e he)

theorem Throws.bind {x : Except Error α} {f : α → Except Error β} (hx : Throws P x) (hf : ∀ a, Throws P (f a)) :
    Throws P (x >>= f) := by
  intro e h
  cases hr : x with
  | ok a => rw [hr] at h; exact hf a e h
  | error e' => rw [hr] at h; cases h; exact hx _ hr

theorem Raises.pure (a : α) : Raises P (Pure.pure a : EStateM Error σ α) := fun _ _ _ h => by cases h

theorem Raises.throw {e : Error} (h : P e) : Raises P (MonadExcept.throw e : EStateM Error σ α) :=
  fun _ _ _ he => by cases he; exact h

theorem Raises.get : Raises P (MonadState.get : EStateM Error σ σ) := fun _ _ _ h => by cases h

theorem Raises.set (s : σ) : Raises P (MonadStateOf.set s : EStateM Error σ PUnit) := fun _ _ _ h => by cases h

theorem Raises.modify (f : σ → σ) : Raises P (modifyGet fun s => (PUnit.unit, f s) : EStateM Error σ PUnit) :=
  fun _ _ _ h => by cases h

theorem Raises.lift {x : Except Error α} (h : Throws P x) : Raises P (liftM x : EStateM Error σ α) := by
  intro s e s' he
  cases x with
  | ok a => cases he
  | error e' => cases he; exact h _ rfl

theorem Raises.bind {x : EStateM Error σ α} {f : α → EStateM Error σ β} (hx : Raises P x) (hf : ∀ a, Raises P (f a)) :
    Raises P (x >>= f) := by
  intro s e s' h
  cases hr : x.run s with
  | ok a s₁ => rw [run_bind_ok hr] at h; exact hf a s₁ e s' h
  | error e' s₁ => rw [run_bind_error hr] at h; cases h; exact hx s _ _ hr

end

/-- The errors of an access through a word that is no reference to an object in use. -/
inductive Error.OfReference : Error → Prop
  | invalidReference (address : Word) : OfReference (.invalidReference address)
  | protectedAccess (address : Word) : OfReference (.protectedAccess address)
  | corruptObject (address : Word) (fault : RecordFault) : OfReference (.corruptObject address fault)

/-- The errors of a pass. -/
inductive Error.OfPass : Error → Prop
  | invalidReference (address : Word) : OfPass (.invalidReference address)
  | protectedAccess (address : Word) : OfPass (.protectedAccess address)
  | corruptObject (address : Word) (fault : RecordFault) : OfPass (.corruptObject address fault)
  | internal (fault : InternalFault) : OfPass (.internal fault)

open Error (OfReference OfPass)

theorem Error.OfReference.ofPass {e : Error} (h : OfReference e) : OfPass e := by
  cases h with
  | invalidReference a => exact .invalidReference a
  | protectedAccess a => exact .protectedAccess a
  | corruptObject a f => exact .corruptObject a f

/-- One error of a pass is not fatal. -/
theorem Error.OfPass.isFatal_iff {e : Error} (h : OfPass e) : e.isFatal = true ↔ ∀ a, e ≠ .invalidReference a := by
  cases h with
  | invalidReference a => exact ⟨nofun, fun h => absurd rfl (h a)⟩
  | protectedAccess a => exact ⟨fun _ _ => nofun, fun _ => rfl⟩
  | corruptObject a f => exact ⟨fun _ _ => nofun, fun _ => rfl⟩
  | internal f => exact ⟨fun _ _ => nofun, fun _ => rfl⟩

/-! ## From accesses to passes -/

namespace Arena

theorem checkRange_throws (a : Arena) (loc : Location) (n : Nat) : Throws OfReference (a.checkRange loc n) := by
  unfold checkRange
  split
  · exact .error (.invalidReference _)
  · split
    · exact .error (.protectedAccess _)
    · exact .ok _

theorem read_throws (a : Arena) (loc : Location) : Throws OfReference (a.read loc) :=
  (a.checkRange_throws loc 1).bind fun _ => .ok _

theorem write_throws (a : Arena) (loc : Location) (w : Word) : Throws OfReference (a.write loc w) :=
  (a.checkRange_throws loc 1).bind fun _ => .ok _

theorem copy_throws (a : Arena) (source target : Location) (n : Nat) : Throws OfPass (a.copy source target n) := by
  unfold copy
  by_cases h : source.half = target.half
  · simp only [if_pos h]
    exact Throws.error (.internal _)
  · simp only [if_neg h]
    exact ((a.checkRange_throws source n).bind fun _ => (a.checkRange_throws target n).bind fun _ => .ok _).imp
      fun _ => OfReference.ofPass

end Arena

theorem Header.read_throws (a : Arena) (loc : Location) : Throws OfReference (Header.read a loc) := by
  refine (a.read_throws loc).bind fun first => (a.read_throws (loc.add 1)).bind fun second => ?_
  split
  · exact .error (.corruptObject _ _)
  · split
    · exact .ok _
    · exact .error (.corruptObject _ _)

theorem Copier.copyObject_raises (half : Half) (source : Location) : Raises OfPass (copyObject half source) := by
  refine Raises.get.bind fun c =>
    (Raises.lift ((Header.read_throws _ _).imp fun _ => OfReference.ofPass)).bind fun header => ?_
  split
  · exact .throw (.internal _)
  · exact (Raises.set _).bind fun _ => (Raises.lift (Arena.copy_throws _ _ _ _)).bind fun _ =>
      (Raises.set _).bind fun _ => .pure _

namespace Pass

theorem onCopier_raises {α : Type} {x : CopierM α} (h : Raises OfPass x) : Raises OfPass (onCopier x) := by
  intro p e p' he
  change onCopier x p = _ at he
  unfold onCopier at he
  split at he
  · cases he
  · next hr => cases he; exact h _ _ _ hr

theorem forward_raises (w : Word) (source : Location) : Raises OfPass (forward w source) := by
  refine Raises.get.bind fun p => (onCopier_raises ?_).bind fun _ => (Raises.modify _).bind fun _ => .pure _
  unfold ForwardTable.resolve
  split
  · exact .pure _
  · exact ((Copier.copyObject_raises _ _).bind fun _ => Raises.get.bind fun _ => .pure _).bind fun _ => .pure _

theorem relocate_raises (w : Word) : Raises OfPass (relocate w) := by
  unfold relocate
  split
  · exact .pure _
  · refine Raises.get.bind fun p => ?_
    split
    · exact .throw (.invalidReference _)
    · split
      · exact .throw (.protectedAccess _)
      · split
        · exact .throw (.invalidReference _)
        · exact forward_raises _ _

theorem relocateSlot_raises (loc : Location) : Raises OfPass (relocateSlot loc) := by
  refine Raises.get.bind fun _ => (Raises.lift ((Arena.read_throws _ _).imp fun _ => OfReference.ofPass)).bind fun _ =>
    (relocate_raises _).bind fun _ => ?_
  split
  · exact Raises.get.bind fun _ =>
      (Raises.lift ((Arena.write_throws _ _ _).imp fun _ => OfReference.ofPass)).bind fun _ => .modify _
  · exact .pure _

theorem relocateSlots_raises : ∀ (loc : Location) (n : Nat), Raises OfPass (relocateSlots loc n)
  | _, 0 => .pure _
  | loc, n + 1 => (relocateSlot_raises loc).bind fun _ => relocateSlots_raises (loc.add 1) n

theorem scanObject_raises (offset : Nat) : Raises OfPass (scanObject offset) :=
  Raises.get.bind fun _ => (Raises.lift ((Header.read_throws _ _).imp fun _ => OfReference.ofPass)).bind fun _ =>
    (relocateSlots_raises _ _).bind fun _ => .pure _

theorem scanFrom_raises (offset : Nat) (p : Pass) : ∀ {e : Error} {p' : Pass}, scanFrom offset p = .error e p' →
    OfPass e := by
  induction offset, p using scanFrom.induct with
  | case1 offset p hlt e p' hr =>
    intro e' p'' h
    rw [scanFrom_error hlt hr] at h
    cases h
    exact scanObject_raises offset _ _ _ hr
  | case2 offset p hlt n p' hr ih =>
    intro e' p'' h
    rw [scanFrom_next hlt hr] at h
    exact ih h
  | case3 offset p hlt =>
    intro e' p'' h
    rw [scanFrom_done (Nat.not_lt.mp hlt)] at h
    cases h

theorem relocateRoots_raises : ∀ {rs : List Ref} {p p' : Pass} {e : Error}, (relocateRoots rs p).2 = .error e p' →
    OfPass e
  | [], _, _, _, h => by cases h
  | r :: rs, p, p', e, h => by
    unfold relocateRoots at h
    split at h
    · rename_i hr; cases h; exact relocate_raises _ _ _ _ hr
    · split at h
      · cases h; exact .internal _
      · exact relocateRoots_raises h

end Pass

/-- A pass fails for one of four reasons. -/
theorem Collector.relocateLive_raises {c : Collector} {live : Nat} {e : Error} {p : Pass}
    (h : (c.relocateLive live).2 = .error e p) : OfPass e := by
  unfold relocateLive at h
  dsimp only at h
  split at h
  · rename_i hr; cases h; exact Pass.relocateRoots_raises hr
  · exact Pass.scanFrom_raises 0 _ h

end Semispace

import Semispace.Relocation.Pass
import Semispace.Proofs.Heap.Record

/-!
# Relocating one word

A word is relocated in one of three ways: zero stays, an object met before is looked up, and any
other object is copied and entered. Each has one equation. Where none applies the word is refused
and nothing has changed.
-/

namespace Semispace

namespace ForwardTable

variable {m : Type → Type} [Monad m]

theorem resolve_of_some {t : ForwardTable} {old new : Word} (h : t.find? old = some new) (copy : m Word) :
    t.resolve old copy = pure (.existing new, t) := by
  unfold resolve
  split
  · rename_i h'; rw [h] at h'; cases h'; rfl
  · rename_i h'; rw [h] at h'; cases h'

theorem resolve_of_none {t : ForwardTable} {old : Word} (h : t.find? old = none) (copy : m Word) :
    t.resolve old copy = (do let new ← copy; pure (.copied new, t.insert old new h)) := by
  unfold resolve
  split
  · rename_i h'; rw [h] at h'; cases h'
  · rfl

end ForwardTable

/-! ## Copying -/

namespace Copier

variable {c : Copier} {half : Half} {loc : Location} {h : Header}

/-- The words of a record. -/
def recordWords (a : Arena) (loc : Location) (n : Nat) : List Word :=
  (List.range n).map fun i => a.word (loc.add i)

theorem run_copyObject (hr : Header.read c.arena loc = .ok h) (hh : loc.half ≠ half)
    (ho : c.arena.isOpen half = true) (hc : c.cursor.capacity = c.arena.spaceWords)
    (hf : c.cursor.top + h.size ≤ c.cursor.capacity) :
    ∃ b cursor, (copyObject half loc).run c = .ok ⟨half, c.cursor.top⟩
        ⟨b, cursor, c.copies.push ⟨h.tag, h.size, b.address loc, b.address ⟨half, c.cursor.top⟩⟩⟩ ∧
      c.arena.Stored b ⟨half, c.cursor.top⟩ (recordWords c.arena loc h.size) ∧
      cursor.top = c.cursor.top + h.size ∧ cursor.capacity = c.cursor.capacity := by
  obtain ⟨_, hlo, hls⟩ := Header.read_eq_ok_iff.mp hr
  obtain ⟨b, hb, hs⟩ := @Arena.copy_ok c.arena loc ⟨half, c.cursor.top⟩ h.size hh hls hlo (hc ▸ hf) ho
  have ht : c.cursor.take h.size = .ok (c.cursor.top, ⟨c.cursor.top + h.size, c.cursor.capacity, hf⟩) := by
    unfold Cursor.take; rw [dif_pos hf]
  refine ⟨b, ⟨c.cursor.top + h.size, c.cursor.capacity, hf⟩, ?_, hs, rfl, rfl⟩
  simp only [copyObject, EStateM.run_bind, EStateM.run_get]
  rw [hr, run_liftM_ok]
  simp only [ht, EStateM.run_bind, EStateM.run_set]
  rw [hb]
  rfl

theorem run_copyObject_unread {e : Error} (hr : Header.read c.arena loc = .error e) :
    (copyObject half loc).run c = .error e c := by
  simp only [copyObject, EStateM.run_bind, EStateM.run_get]
  rw [hr, run_liftM_error]

theorem run_copyObject_full (half : Half) (hr : Header.read c.arena loc = .ok h)
    (hf : c.cursor.capacity < c.cursor.top + h.size) :
    (copyObject half loc).run c =
      .error (.internal (.destinationExhausted (c.arena.address loc) h.size c.cursor.remaining)) c := by
  have ht : c.cursor.take h.size = .error (.outOfMemory h.size c.cursor.remaining) := by
    unfold Cursor.take; rw [dif_neg (Nat.not_le.mpr hf)]
  simp only [copyObject, EStateM.run_bind, EStateM.run_get]
  rw [hr, run_liftM_ok]
  simp only [ht]
  rfl

end Copier

/-! ## Relocating -/

namespace Pass

variable {p : Pass} {w new : Word} {source : Location}

theorem run_forward_found (h : p.table.find? w = some new) : (forward w source).run p = .ok new p := by
  simp only [forward, EStateM.run_bind, EStateM.run_get]
  rw [ForwardTable.resolve_of_some h]
  rfl

theorem run_forward_copied (h : p.table.find? w = none) {target : Location} {c : Copier}
    (hc : (Copier.copyObject p.destination source).run p.copier = .ok target c) :
    (forward w source).run p = .ok (c.arena.address target)
      { p with copier := c, table := p.table.insert w (c.arena.address target) h } := by
  simp only [forward, EStateM.run_bind, EStateM.run_get]
  rw [ForwardTable.resolve_of_none h]
  have hr : (copyOf p.destination source).run p.copier = .ok (c.arena.address target) c := by
    simp only [copyOf, EStateM.run_bind]
    rw [hc]
    rfl
  have ho : (onCopier (do
      let new ← copyOf p.destination source
      pure (Forwarded.copied new, p.table.insert w new h))).run p =
      .ok (.copied (c.arena.address target), p.table.insert w (c.arena.address target) h)
        { p with copier := c } := by
    simp only [onCopier, EStateM.run, bind, EStateM.bind] at hr ⊢
    rw [hr]
    rfl
  rw [ho]
  rfl

theorem run_forward_failed (h : p.table.find? w = none) {e : Error} {c : Copier}
    (hc : (Copier.copyObject p.destination source).run p.copier = .error e c) :
    (forward w source).run p = .error e { p with copier := c } := by
  simp only [forward, EStateM.run_bind, EStateM.run_get]
  rw [ForwardTable.resolve_of_none h]
  simp only [onCopier, copyOf, EStateM.run, bind, EStateM.bind] at hc ⊢
  rw [hc]

theorem run_relocate (hw : w ≠ 0) (hl : p.arena.locate w = some source) (hh : source.half ≠ p.destination)
    (ht : source.offset < p.sourceTop) : (relocate w).run p = (forward w source).run p := by
  unfold relocate
  rw [if_neg hw]
  simp only [EStateM.run_bind, EStateM.run_get]
  rw [hl]
  simp only [if_neg hh, if_neg (Nat.not_le.mpr ht)]

/-- A word that is no address in use in the source is refused. -/
theorem run_relocate_refused (hw : w ≠ 0)
    (h : ∀ source, p.arena.locate w = some source → source.half ≠ p.destination → p.sourceTop ≤ source.offset) :
    ∃ e, (relocate w).run p = .error e p := by
  unfold relocate
  rw [if_neg hw]
  simp only [EStateM.run_bind, EStateM.run_get]
  split
  · exact ⟨_, rfl⟩
  · rename_i source hl
    by_cases hh : source.half = p.destination
    · simp only [if_pos hh]; exact ⟨_, rfl⟩
    · simp only [if_neg hh, if_pos (h source hl hh)]; exact ⟨_, rfl⟩

end Pass

end Semispace

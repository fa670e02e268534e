import Semispace.Proofs.Heap.Stored
import Mathlib.Data.Set.Function

/-!
# Addresses and locations

Of the words that a mapping holds, some fill up the last page of a half and are not used. The others
are the locations of the heap, and every one has an address of its own that no word of the rest of the
address space has (`Arena.map_corresponds`).
-/

namespace Semispace

namespace Layout

variable {l : Layout} {loc loc' : Location} {w : Word}

/-- The address of a whole word in the usable part of a half. -/
def Usable (l : Layout) (w : Word) : Prop :=
  w.toNat % wordBytes = 0 ∧ ∃ h, l.start h ≤ w.toNat ∧ w.toNat < l.start h + l.spaceWords * wordBytes

theorem usable_address (h : loc.offset < l.spaceWords) : l.Usable (l.address loc) := by
  have hword := l.start_mod_word loc.half
  have haddr := l.toNat_address h
  unfold wordBytes at *
  refine ⟨by unfold wordBytes; omega, loc.half, by omega, by unfold wordBytes; omega⟩

theorem exists_address (h : l.Usable w) : ∃ loc, loc.offset < l.spaceWords ∧ l.address loc = w := by
  obtain ⟨haligned, half, hstart, hend⟩ := h
  have hword := l.start_mod_word half
  unfold wordBytes at *
  have ho : (w.toNat - l.start half) / 8 < l.spaceWords := by omega
  refine ⟨⟨half, (w.toNat - l.start half) / 8⟩, ho, ?_⟩
  have haddr := @toNat_address l ⟨half, (w.toNat - l.start half) / 8⟩ ho
  unfold wordBytes at haddr
  rw [← UInt64.toNat_inj, haddr]
  dsimp only
  omega

theorem address_injective (h : loc.offset < l.spaceWords) (h' : loc'.offset < l.spaceWords)
    (he : l.address loc = l.address loc') : loc = loc' := by
  have hl : l.locate (l.address loc) = some loc := l.locate_address h
  rw [he, l.locate_address h'] at hl
  exact (Option.some.inj hl).symm

theorem address_bijOn (l : Layout) :
    Set.BijOn l.address {loc | loc.offset < l.spaceWords} {w | l.Usable w} := by
  refine ⟨?_, ?_, ?_⟩
  · intro loc h
    exact usable_address h
  · intro loc h loc' h' he
    exact address_injective h h' he
  · intro w hw
    obtain ⟨loc, h, he⟩ := exists_address hw
    exact ⟨loc, h, he⟩

/-- A location is accessed in the word of memory that its address is the address of. -/
theorem base_add_cell_eq (h : loc.offset < l.spaceWords) :
    l.base + l.cell loc * wordBytes = (l.address loc).toNat :=
  (l.base_add_cell loc).trans (l.toNat_address h).symm

/-- No two words share a byte. -/
theorem address_apart (h : loc.offset < l.spaceWords) (h' : loc'.offset < l.spaceWords) (hne : loc ≠ loc') :
    (l.address loc).toNat + wordBytes ≤ (l.address loc').toNat ∨
      (l.address loc').toNat + wordBytes ≤ (l.address loc).toNat := by
  have hcell : l.cell loc ≠ l.cell loc' := fun he => hne (cell_injective h h' he)
  have haddr := base_add_cell_eq h
  have haddr' := base_add_cell_eq h'
  unfold wordBytes at *
  omega

theorem start_add_spaceBytes_le (l : Layout) (h : Half) :
    l.base ≤ l.start h ∧ l.start h + l.spaceBytes ≤ l.base + l.mappedBytes := by
  have hlow := l.start_low
  have hhigh := l.start_high
  unfold mappedBytes
  cases h with
  | low => omega
  | high => omega

theorem plan_eq_ok {machine : Machine} {heapWords : Nat} (h : plan machine heapWords = .ok l) :
    l.machine = machine ∧ l.spaceWords = heapWords / 2 := by
  unfold plan at h
  dsimp only at h
  split at h
  · split at h
    · cases h
    split at h
    · cases h
    split at h
    · cases h
    split at h
    · cases h
      exact ⟨rfl, rfl⟩
    · cases h
  · cases h

end Layout

namespace Arena

variable {machine : Machine} {heapWords : Nat} {a : Arena}

theorem map_eq_ok (h : Arena.map machine heapWords = .ok a) :
    a.layout.machine = machine ∧ a.spaceWords = heapWords / 2 := by
  unfold Arena.map at h
  cases hl : Layout.plan machine heapWords with
  | error e => rw [hl] at h; cases h
  | ok l =>
    rw [hl] at h
    cases h
    exact Layout.plan_eq_ok hl

/-- Locations and usable addresses correspond in every mapped heap, whatever its size and the page
size, and no word is shared by two locations. -/
theorem map_corresponds (h : Arena.map machine heapWords = .ok a) :
    a.spaceWords = heapWords / 2 ∧
    -- the two functions are inverse to each other
    (∀ loc : Location, loc.offset < a.spaceWords → a.locate (a.address loc) = some loc) ∧
    (∀ w loc, a.locate w = some loc ↔ loc.offset < a.spaceWords ∧ w = a.address loc) ∧
    Set.BijOn a.address {loc | loc.offset < a.spaceWords} {w | a.layout.Usable w} ∧
    (∀ loc : Location, loc.offset < a.spaceWords →
      (a.address loc).toNat = a.layout.start loc.half + loc.offset * wordBytes) ∧
    -- what is not located
    (∀ w, a.locate w = none ↔ w.toNat % wordBytes ≠ 0 ∨
      (w.toNat < machine.base ∨ machine.base + a.layout.mappedBytes ≤ w.toNat) ∨
      ∃ half, a.layout.start half + a.spaceWords * wordBytes ≤ w.toNat ∧
        w.toNat < a.layout.start half + a.layout.spaceBytes) ∧
    -- the halves
    (∀ half, a.layout.start half % machine.page = 0 ∧ a.spaceWords * wordBytes ≤ a.layout.spaceBytes ∧
      machine.base ≤ a.layout.start half ∧
      a.layout.start half + a.layout.spaceBytes ≤ machine.base + a.layout.mappedBytes) ∧
    a.layout.start .low + a.layout.spaceBytes ≤ a.layout.start .high ∧
    -- different locations are different words of memory
    (∀ loc : Location, loc.offset < a.spaceWords →
      machine.base + a.layout.cell loc * wordBytes = (a.address loc).toNat) ∧
    ∀ loc loc' : Location, loc.offset < a.spaceWords → loc'.offset < a.spaceWords → loc ≠ loc' →
      ((a.address loc).toNat + wordBytes ≤ (a.address loc').toNat ∨
        (a.address loc').toNat + wordBytes ≤ (a.address loc).toNat) ∧
      ∀ (b b' : Arena) (w : Word), b.layout = a.layout → b.write loc w = .ok b' → b'.word loc' = b.word loc' := by
  obtain ⟨hmachine, hwords⟩ := map_eq_ok h
  have hbase : a.layout.base = machine.base := by rw [Layout.base, hmachine]
  have hhigh := a.layout.start_high
  rw [← hbase, ← hmachine]
  refine ⟨hwords, fun loc hl => a.layout.locate_address hl, fun w loc => Layout.locate_eq_some_iff,
    a.layout.address_bijOn, fun loc hl => a.layout.toNat_address hl, fun w => Layout.locate_eq_none_iff,
    fun half => ⟨a.layout.start_mod_page half, a.layout.spaceWords_le, a.layout.start_add_spaceBytes_le half⟩,
    by rw [a.layout.start_low, hhigh], fun loc hl => Layout.base_add_cell_eq hl, ?_⟩
  intro loc loc' hl hl' hne
  refine ⟨Layout.address_apart hl hl' hne, fun b b' w hlayout hwrite => ?_⟩
  have hb : loc'.offset < b.spaceWords := by rw [spaceWords, hlayout]; exact hl'
  rw [word_write hwrite hb, if_neg (Ne.symm hne)]

/-- Half of 1001 words leave twelve words of a page over. -/
theorem map_corresponds_padded : ∃ a, Arena.map .standard 1001 = .ok a ∧ a.spaceWords = 500 ∧
    a.locate (a.address ⟨.high, 499⟩) = some ⟨.high, 499⟩ ∧ a.locate (a.address ⟨.low, 500⟩) = none := by
  have h : Arena.map .standard 1001 =
      .ok ⟨⟨.standard, 500, by decide, by decide⟩, .low, false, .empty⟩ := rfl
  obtain ⟨hwords, hlocate, _, _, _, hnone, _⟩ := map_corresponds h
  refine ⟨_, h, hwords, hlocate _ (by decide), (hnone _).mpr (.inr (.inr ⟨.low, ?_, ?_⟩))⟩
  · decide +kernel
  · decide +kernel

end Arena

end Semispace

import Semispace.Error
import Semispace.Machine
/-!
# Where the halves lie

One mapping holds both halves, the low one first, each rounded up to whole pages. `locate` finds the
location an address belongs to by comparing it with each half in turn; it is the inverse of
`address` on the usable words and refuses every other address.
-/

namespace Semispace

/-- The bytes of one half. -/
def spaceBytesFor (page spaceWords : Nat) : Nat :=
  roundToPage (spaceWords * wordBytes) page

/-- A mapping laid out as two halves. -/
structure Layout where
  machine : Machine
  /-- Usable words of one half. -/
  spaceWords : Nat
  pos : 0 < spaceWords
  fits : 2 * spaceBytesFor machine.page spaceWords ≤ machine.memory

namespace Layout

/-- The address of the first byte of the mapping. -/
def base (l : Layout) : Nat := l.machine.base

/-- The bytes of one half. -/
def spaceBytes (l : Layout) : Nat := spaceBytesFor l.machine.page l.spaceWords

/-- The bytes of both halves. -/
def mappedBytes (l : Layout) : Nat := 2 * l.spaceBytes

/-- Lays out a heap of `heapWords` words. Sizes are computed in 64 bits, and the first that does
not fit decides the error. -/
def plan (machine : Machine) (heapWords : Nat) : Except Error Layout :=
  let spaceWords := heapWords / 2
  if pos : 0 < spaceWords then
    let total := 2 * spaceBytesFor machine.page spaceWords
    if (roundToPage? (spaceWords * wordBytes) machine.page).isNone then
      .error (.heapInitialization (.spaceOverflows spaceWords))
    else if UInt64.size ≤ total then .error (.heapInitialization .heapOverflows)
    else if UInt64.size / 2 ≤ total then .error (.virtualMemory (.tooLong total))
    else if fits : total ≤ machine.memory then .ok { machine, spaceWords, pos, fits }
    else .error (.virtualMemory (.noMemory total))
  else .error (.heapInitialization (.tooSmall heapWords))

/-- The address of the first byte of a half. -/
def start (l : Layout) (h : Half) : Nat :=
  l.base + h.index * l.spaceBytes

/-- The address of a location. Past the end of the address space it wraps. -/
def address (l : Layout) (loc : Location) : Word :=
  UInt64.ofNat (l.start loc.half + loc.offset * wordBytes)

/-- The word of memory that a location names, counted from the start of the mapping. -/
def cell (l : Layout) (loc : Location) : Nat :=
  loc.half.index * (l.spaceBytes / wordBytes) + loc.offset

/-- The usable word of a half that an address is the address of. -/
def locateIn (l : Layout) (h : Half) (a : Nat) : Option Location :=
  if l.start h ≤ a ∧ (a - l.start h) % wordBytes = 0 ∧ (a - l.start h) / wordBytes < l.spaceWords
  then some ⟨h, (a - l.start h) / wordBytes⟩ else none

/-- The usable word an address is the address of. -/
def locate (l : Layout) (w : Word) : Option Location :=
  (l.locateIn .low w.toNat).or (l.locateIn .high w.toNat)

/-- The half an address is a usable word of. -/
def halfOf (l : Layout) (w : Word) : Option Half :=
  (l.locate w).map Location.half

/-! ## Arithmetic of the layout -/

theorem spaceBytes_mod_page (l : Layout) : l.spaceBytes % l.machine.page = 0 :=
  roundToPage_mod l.machine.page_pow _

theorem spaceBytes_mod_word (l : Layout) : l.spaceBytes % wordBytes = 0 :=
  l.machine.mod_word l.spaceBytes_mod_page

theorem spaceWords_le (l : Layout) : l.spaceWords * wordBytes ≤ l.spaceBytes :=
  le_roundToPage l.machine.page_pow _

theorem start_low (l : Layout) : l.start .low = l.base := by
  simp [start, Half.index]

theorem start_high (l : Layout) : l.start .high = l.base + l.spaceBytes := by
  simp [start, Half.index]

/-- Both halves start on a page. -/
theorem start_mod_page (l : Layout) (h : Half) : l.start h % l.machine.page = 0 := by
  have hbase : l.base % l.machine.page = 0 := l.machine.base_page
  cases h with
  | low => rw [start_low, hbase]
  | high => rw [start_high, Nat.add_mod, hbase, l.spaceBytes_mod_page, Nat.zero_mod]

theorem start_mod_word (l : Layout) (h : Half) : l.start h % wordBytes = 0 :=
  l.machine.mod_word (l.start_mod_page h)

/-- The end of the mapping is an address. -/
theorem end_le (l : Layout) : l.base + 2 * l.spaceBytes ≤ UInt64.size :=
  Nat.le_trans (Nat.add_le_add_left l.fits _) l.machine.room

theorem base_mod_word (l : Layout) : l.base % wordBytes = 0 :=
  l.machine.mod_word l.machine.base_page

/-- The address of a usable word is not wrapped. -/
theorem toNat_address (l : Layout) {loc : Location} (h : loc.offset < l.spaceWords) :
    (l.address loc).toNat = l.start loc.half + loc.offset * wordBytes := by
  have h1 := l.end_le
  have h2 := l.spaceWords_le
  have h3 : loc.offset * wordBytes < l.spaceWords * wordBytes :=
    Nat.mul_lt_mul_of_pos_right h (by decide)
  have h4 : l.start loc.half ≤ l.base + l.spaceBytes := by
    cases loc.half <;> simp [start, Half.index]
  have h5 : l.start loc.half + loc.offset * wordBytes < UInt64.size := by omega
  exact UInt64.toNat_ofNat_of_lt' h5

theorem address_ne_zero (l : Layout) {loc : Location} (h : loc.offset < l.spaceWords) :
    l.address loc ≠ 0 := by
  intro h0
  have h1 := l.toNat_address h
  have h2 : 0 < l.base := l.machine.base_pos
  rw [h0] at h1
  simp [start] at h1
  omega

theorem locateIn_eq_some_iff {l : Layout} {h : Half} {a : Nat} {loc : Location} :
    l.locateIn h a = some loc ↔
      loc.half = h ∧ loc.offset < l.spaceWords ∧ a = l.start h + loc.offset * wordBytes := by
  unfold locateIn wordBytes
  obtain ⟨half, offset⟩ := loc
  constructor
  · intro hl
    split at hl
    · next hc =>
      simp only [Option.some.injEq, Location.mk.injEq] at hl
      obtain ⟨rfl, rfl⟩ := hl
      obtain ⟨h1, h2, h3⟩ := hc
      exact ⟨rfl, h3, by dsimp only; omega⟩
    · cases hl
  · rintro ⟨rfl, ho, rfl⟩
    have h1 : l.start half + offset * 8 - l.start half = offset * 8 := by omega
    simp only at ho
    simp [h1, ho]

/-- The two halves have no address in common. -/
theorem locateIn_low_high (l : Layout) (n : Nat) :
    l.locateIn .low (l.start .high + n * wordBytes) = none := by
  rw [Option.eq_none_iff_forall_ne_some]
  intro loc' h'
  obtain ⟨_, h1, h2⟩ := locateIn_eq_some_iff.mp h'
  have h3 : loc'.offset * wordBytes < l.spaceWords * wordBytes :=
    Nat.mul_lt_mul_of_pos_right h1 (by decide)
  have h4 := l.spaceWords_le
  rw [start_low, start_high] at h2
  omega

/-- Locations and the addresses of usable words correspond. -/
theorem locate_eq_some_iff {l : Layout} {w : Word} {loc : Location} :
    l.locate w = some loc ↔ loc.offset < l.spaceWords ∧ w = l.address loc := by
  constructor
  · intro h
    have hn : ∃ h', l.locateIn h' w.toNat = some loc := by
      rcases Option.or_eq_some_iff.mp h with h' | ⟨_, h'⟩
      · exact ⟨_, h'⟩
      · exact ⟨_, h'⟩
    obtain ⟨h', hn⟩ := hn
    obtain ⟨rfl, ho, ha⟩ := locateIn_eq_some_iff.mp hn
    refine ⟨ho, ?_⟩
    rw [← UInt64.toNat_inj, l.toNat_address ho, ha]
  · rintro ⟨ho, rfl⟩
    unfold locate
    rw [l.toNat_address ho]
    cases hh : loc.half with
    | low =>
      have : l.locateIn .low (l.start .low + loc.offset * wordBytes) = some loc :=
        locateIn_eq_some_iff.mpr ⟨hh, ho, rfl⟩
      rw [this]; rfl
    | high =>
      rw [locateIn_low_high]
      exact locateIn_eq_some_iff.mpr ⟨hh, ho, rfl⟩

theorem locate_address (l : Layout) {loc : Location} (h : loc.offset < l.spaceWords) :
    l.locate (l.address loc) = some loc :=
  locate_eq_some_iff.mpr ⟨h, rfl⟩

/-- Different usable words are different words of memory. -/
theorem cell_injective {l : Layout} {a b : Location} (ha : a.offset < l.spaceWords)
    (hb : b.offset < l.spaceWords) (h : l.cell a = l.cell b) : a = b := by
  have h1 := l.spaceWords_le
  have h2 : l.spaceWords ≤ l.spaceBytes / wordBytes := (Nat.le_div_iff_mul_le (by decide)).mpr h1
  obtain ⟨ha', oa⟩ := a
  obtain ⟨hb', ob⟩ := b
  simp only at ha hb
  cases ha' <;> cases hb' <;> simp [cell, Half.index] at h ⊢ <;> omega

end Layout

end Semispace

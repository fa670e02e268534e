import Semispace.Heap.Arena

/-!
# What an arena operation stores

`Stored a b loc ws`: `b` is `a` with the words `ws` stored from `loc` on. Writing, zeroing and
copying are described by the words they store, and everything outside keeps its word.
-/

namespace Semispace

/-- A run of words of one half is a run of memory, and holds no word of the other half. -/
theorem Layout.cell_mem_iff {l : Layout} {loc loc' : Location} {n : Nat} (h : loc.offset + n ≤ l.spaceWords)
    (h' : loc'.offset < l.spaceWords) :
    l.cell loc ≤ l.cell loc' ∧ l.cell loc' < l.cell loc + n ↔
      loc'.half = loc.half ∧ loc.offset ≤ loc'.offset ∧ loc'.offset < loc.offset + n := by
  have hs : l.spaceWords ≤ l.spaceBytes / wordBytes := (Nat.le_div_iff_mul_le (by decide)).mpr l.spaceWords_le
  obtain ⟨half, o⟩ := loc
  obtain ⟨half', o'⟩ := loc'
  simp only at h h'
  cases half <;> cases half' <;> simp [cell, Half.index] <;> omega

theorem Layout.cell_add (l : Layout) (loc : Location) (n : Nat) : l.cell (loc.add n) = l.cell loc + n := by
  simp only [cell, Location.add_half, Location.add_offset]; omega

theorem Layout.spaceWords_lt (l : Layout) : l.spaceWords < UInt64.size := by
  have h1 := l.spaceWords_le
  have h2 := l.end_le
  have h3 := l.pos
  unfold wordBytes at h1
  omega

/-- The words of memory lie one after another from the start of the mapping. -/
theorem Layout.base_add_cell (l : Layout) (loc : Location) :
    l.base + l.cell loc * wordBytes = l.start loc.half + loc.offset * wordBytes := by
  have hs : l.spaceBytes / wordBytes * wordBytes = l.spaceBytes :=
    Nat.div_mul_cancel (Nat.dvd_of_mod_eq_zero l.spaceBytes_mod_word)
  unfold cell start
  rw [Nat.add_mul, Nat.mul_assoc, hs, Nat.add_assoc]

/-- The addresses that are not one of a usable word: those between words, those outside the mapping and
those in what is left of the last page of a half. -/
theorem Layout.locate_eq_none_iff {l : Layout} {w : Word} : l.locate w = none ↔ w.toNat % wordBytes ≠ 0 ∨
    (w.toNat < l.base ∨ l.base + l.mappedBytes ≤ w.toNat) ∨
    ∃ h, l.start h + l.spaceWords * wordBytes ≤ w.toNat ∧ w.toNat < l.start h + l.spaceBytes := by
  have hbase := l.base_mod_word
  have hbytes := l.spaceBytes_mod_word
  have hspace := l.spaceWords_le
  have hlow := l.start_low
  have hhigh := l.start_high
  unfold mappedBytes
  unfold wordBytes at *
  constructor
  · intro hnone
    refine Classical.byContradiction fun hw => ?_
    obtain ⟨haligned, hw⟩ := not_or.mp hw
    obtain ⟨hinside, hpadding⟩ := not_or.mp hw
    have hpad : ∀ h, ¬ (l.start h + l.spaceWords * 8 ≤ w.toNat ∧ w.toNat < l.start h + l.spaceBytes) :=
      not_exists.mp hpadding
    have h1 := hpad .low
    have h2 := hpad .high
    -- the word is in the half that its address is in
    obtain ⟨half, hstart, hend⟩ : ∃ half, l.start half ≤ w.toNat ∧ w.toNat < l.start half + l.spaceWords * 8 := by
      by_cases hhalf : w.toNat < l.base + l.spaceBytes
      · exact ⟨.low, by omega, by omega⟩
      · exact ⟨.high, by omega, by omega⟩
    have hdiv : (w.toNat - l.start half) % 8 = 0 := by
      cases half with
      | low => omega
      | high => omega
    have ho : (w.toNat - l.start half) / 8 < l.spaceWords := by omega
    have haddr := @toNat_address l ⟨half, (w.toNat - l.start half) / 8⟩ ho
    have hw : w = l.address ⟨half, (w.toNat - l.start half) / 8⟩ := by
      rw [← UInt64.toNat_inj, haddr]
      unfold wordBytes
      dsimp only
      omega
    rw [locate_eq_some_iff.mpr ⟨ho, hw⟩] at hnone
    cases hnone
  · intro hw
    rw [Option.eq_none_iff_forall_ne_some]
    intro loc hl
    obtain ⟨ho, rfl⟩ := locate_eq_some_iff.mp hl
    rw [l.toNat_address ho] at hw
    unfold wordBytes at hw
    have hlt : loc.offset * 8 < l.spaceWords * 8 := by omega
    rcases hw with hw | hw | ⟨h, h1, h2⟩
    · cases hh : loc.half <;> rw [hh] at hw <;> omega
    · cases hh : loc.half <;> rw [hh] at hw <;> omega
    · cases hh : loc.half <;> cases h <;> rw [hh] at h1 h2 <;> omega

/-- The address of the end of a half is not wrapped unless the mapping ends with the address space. -/
theorem Layout.toNat_address_end (l : Layout) (h : l.base + l.mappedBytes < UInt64.size) (half : Half) :
    (l.address ⟨half, l.spaceWords⟩).toNat = l.start half + l.spaceWords * wordBytes := by
  have hspace := l.spaceWords_le
  have hstart : l.start half ≤ l.base + l.spaceBytes := by
    cases half <;> simp [start, Half.index]
  unfold mappedBytes at h
  exact UInt64.toNat_ofNat_of_lt' (show l.start half + l.spaceWords * wordBytes < UInt64.size by omega)

theorem Location.add_zero (loc : Location) : loc.add 0 = loc := rfl

theorem Location.add_add (loc : Location) (m n : Nat) : (loc.add m).add n = loc.add (m + n) := by
  simp only [add, Nat.add_assoc]

namespace Arena

structure Stored (a b : Arena) (loc : Location) (ws : List Word) : Prop where
  layout : b.layout = a.layout
  active : b.active = a.active
  inactiveOpen : b.inactiveOpen = a.inactiveOpen
  inside : ∀ i (h : i < ws.length), b.word (loc.add i) = ws[i]
  outside : ∀ loc' : Location, loc'.offset < a.spaceWords →
    (loc'.half = loc.half → loc'.offset < loc.offset ∨ loc.offset + ws.length ≤ loc'.offset) →
    b.word loc' = a.word loc'

namespace Stored

variable {a b c : Arena} {loc : Location} {w : Word} {ws ws' : List Word}

theorem spaceWords (h : Stored a b loc ws) : b.spaceWords = a.spaceWords := by
  unfold Arena.spaceWords; rw [h.layout]

theorem address (h : Stored a b loc ws) (loc' : Location) : b.address loc' = a.address loc' := by
  unfold Arena.address; rw [h.layout]

theorem locate (h : Stored a b loc ws) (w : Word) : b.locate w = a.locate w := by
  unfold Arena.locate; rw [h.layout]

theorem isOpen (h : Stored a b loc ws) (half : Half) : b.isOpen half = a.isOpen half := by
  unfold Arena.isOpen Arena.isClosed; rw [h.active, h.inactiveOpen]

/-- The other half keeps its words. -/
theorem other_half (h : Stored a b loc ws) {half : Half} (hh : half ≠ loc.half) {i : Nat} (hi : i < a.spaceWords) :
    b.word ⟨half, i⟩ = a.word ⟨half, i⟩ :=
  h.outside ⟨half, i⟩ hi fun e => absurd e hh

/-- Storing the word that is there changes nothing. -/
theorem refl (a : Arena) (loc : Location) : Stored a a loc [a.word loc] := by
  refine ⟨rfl, rfl, rfl, fun i hi => ?_, fun _ _ _ => rfl⟩
  have : i = 0 := by simp at hi; omega
  subst this
  rfl

theorem nil (a : Arena) (loc : Location) : Stored a a loc [] :=
  ⟨rfl, rfl, rfl, fun _ h => absurd h (Nat.not_lt_zero _), fun _ _ _ => rfl⟩

theorem cons (h : Stored a b loc [w]) (h' : Stored b c (loc.add 1) ws) (hl : loc.offset < a.spaceWords) :
    Stored a c loc (w :: ws) where
  layout := h'.layout.trans h.layout
  active := h'.active.trans h.active
  inactiveOpen := h'.inactiveOpen.trans h.inactiveOpen
  inside := by
    intro i hi
    cases i with
    | zero =>
      have h1 : c.word loc = b.word loc :=
        h'.outside loc (by rw [h.spaceWords]; exact hl) fun _ => Or.inl (by simp)
      rw [Location.add_zero, h1]
      exact h.inside 0 (by simp)
    | succ i =>
      have h1 := h'.inside i (by simpa using hi)
      rw [Location.add_add, Nat.add_comm 1 i] at h1
      exact h1
  outside := by
    intro loc' hl' ho
    simp only [List.length_cons] at ho
    rw [h'.outside loc' (by rw [h.spaceWords]; exact hl') fun e => by have := ho e; simp; omega]
    exact h.outside loc' hl' fun e => by have := ho e; simp; omega

/-- What is stored over leaves no trace. -/
theorem overwrite (h : Stored a b loc ws) (h' : Stored b c loc ws') (hl : ws.length = ws'.length) :
    Stored a c loc ws' where
  layout := h'.layout.trans h.layout
  active := h'.active.trans h.active
  inactiveOpen := h'.inactiveOpen.trans h.inactiveOpen
  inside := h'.inside
  outside := by
    intro loc' hl' ho
    rw [h'.outside loc' (by rw [h.spaceWords]; exact hl') ho]
    exact h.outside loc' hl' fun e => hl ▸ ho e

end Stored

/-! ## The operations -/

theorem write_eq {a b : Arena} {loc : Location} {w : Word} (h : a.write loc w = .ok b) :
    loc.offset < a.spaceWords ∧ b = { a with memory := a.memory.write (a.layout.cell loc) w } := by
  unfold write at h
  cases hc : a.checkRange loc 1 with
  | error e => simp [hc, bind, Except.bind] at h
  | ok _ =>
    simp only [hc, bind, Except.bind, pure, Except.pure, Except.ok.injEq] at h
    exact ⟨(checkRange_eq_ok_iff.mp hc).1, h.symm⟩

theorem write_stored {a b : Arena} {loc : Location} {w : Word} (h : a.write loc w = .ok b) : Stored a b loc [w] := by
  have hw : ∀ loc', loc'.offset < a.spaceWords → b.word loc' = if loc' = loc then w else a.word loc' :=
    fun _ h' => word_write h h'
  obtain ⟨hl, hb⟩ := write_eq h
  refine ⟨by rw [hb], by rw [hb], by rw [hb], ?_, ?_⟩
  · intro i hi
    have : i = 0 := by simp at hi; omega
    subst this
    rw [Location.add_zero, hw loc hl]; simp
  · intro loc' hl' ho
    rw [hw loc' hl', if_neg]
    rintro rfl
    have := ho rfl
    rw [List.length_singleton] at this
    omega

theorem write_ok {a : Arena} {loc : Location} (w : Word) (hl : loc.offset < a.spaceWords)
    (ho : a.isOpen loc.half = true) : ∃ b, a.write loc w = .ok b ∧ Stored a b loc [w] := by
  have hc : a.checkRange loc 1 = .ok () := checkRange_of_ok hl ho
  have hw : a.write loc w = .ok { a with memory := a.memory.write (a.layout.cell loc) w } := by
    simp [write, hc, bind, Except.bind, pure, Except.pure]
  exact ⟨_, hw, write_stored hw⟩

theorem read_ok {a : Arena} {loc : Location} (hl : loc.offset < a.spaceWords) (ho : a.isOpen loc.half = true) :
    a.read loc = .ok (a.word loc) :=
  read_eq_ok_iff.mpr ⟨hl, ho, rfl⟩

theorem zero_stored {a b : Arena} {loc : Location} {n : Nat} (h : a.zero loc n = .ok b) :
    Stored a b loc (List.replicate n 0) := by
  unfold zero at h
  cases hc : a.checkRange loc n with
  | error e => simp [hc, bind, Except.bind] at h
  | ok _ =>
    have hl : loc.offset + n ≤ a.spaceWords := (checkRange_eq_ok_iff.mp hc).1
    simp only [hc, bind, Except.bind, pure, Except.pure, Except.ok.injEq] at h
    subst h
    refine ⟨rfl, rfl, rfl, ?_, ?_⟩
    · intro i hi
      rw [List.length_replicate] at hi
      rw [List.getElem_replicate]
      simp only [word, Memory.read_zero, Layout.cell_add]
      rw [if_pos (by omega)]
    · intro loc' hl' ho'
      simp only [List.length_replicate] at ho'
      simp only [word, Memory.read_zero]
      rw [if_neg]
      intro hm
      obtain ⟨h1, h2, h3⟩ := (Layout.cell_mem_iff (l := a.layout) hl hl').mp hm
      have := ho' h1
      omega

theorem zero_ok {a : Arena} {loc : Location} {n : Nat} (hl : loc.offset + n ≤ a.spaceWords)
    (ho : a.isOpen loc.half = true) : ∃ b, a.zero loc n = .ok b ∧ Stored a b loc (List.replicate n 0) := by
  have hc : a.checkRange loc n = .ok () := checkRange_of_ok hl ho
  have hz : a.zero loc n = .ok { a with memory := a.memory.zero (a.layout.cell loc) n } := by
    simp only [zero, hc, bind, Except.bind, pure, Except.pure]
  exact ⟨_, hz, zero_stored hz⟩

/-- Copying between the halves stores the words of the source. -/
theorem copy_ok {a : Arena} {source target : Location} {n : Nat} (hh : source.half ≠ target.half)
    (hs : source.offset + n ≤ a.spaceWords) (hso : a.isOpen source.half = true)
    (ht : target.offset + n ≤ a.spaceWords) (hto : a.isOpen target.half = true) :
    ∃ b, a.copy source target n = .ok b ∧
      Stored a b target ((List.range n).map fun i => a.word (source.add i)) := by
  have h1 : a.checkRange source n = .ok () := checkRange_of_ok hs hso
  have h2 : a.checkRange target n = .ok () := checkRange_of_ok ht hto
  have hc : a.copy source target n = .ok
      { a with memory := a.memory.copy (a.layout.cell source) (a.layout.cell target) n } := by
    simp only [copy, if_neg hh, h1, h2, bind, Except.bind, pure, Except.pure]
  refine ⟨_, hc, rfl, rfl, rfl, ?_, ?_⟩
  · intro i hi
    simp only [List.length_map, List.length_range] at hi
    simp only [List.getElem_map, List.getElem_range, word, Memory.read_copy, Layout.cell_add]
    rw [if_pos (by omega)]
    congr 1; omega
  · intro loc' hl' ho'
    simp only [List.length_map, List.length_range] at ho'
    simp only [word, Memory.read_copy]
    rw [if_neg]
    intro hm
    obtain ⟨h3, h4, h5⟩ := (Layout.cell_mem_iff (l := a.layout) ht hl').mp hm
    have := ho' h3
    omega

end Arena

end Semispace

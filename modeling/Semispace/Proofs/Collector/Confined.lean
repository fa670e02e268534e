import Semispace.Proofs.Collector.Shape

/-!
# Access within the words in use

What is read through a reference, or written, is decided by words of the active half below the cursor
(`access_confined`). Their addresses are counted from the reference without wrapping, whatever the words
of the heap are. Every address that is not one of a word in use is refused for the reason its class gives.
-/

namespace Semispace

namespace Collector

/-! ## Words that decide an answer -/

/-- The reference is the address of the word of the active half at the offset `o`. -/
def Refers (c : Collector) (r : Ref) (o : Nat) : Prop := c.arena.locate r.addr = some ⟨c.arena.active, o⟩

/-- Two collectors have the same words of the active half at the offsets `S`, whatever else they have. -/
structure Alike (c c' : Collector) (S : Set Nat) : Prop where
  layout : c'.arena.layout = c.arena.layout
  active : c'.arena.active = c.arena.active
  top : c'.cursor.top = c.cursor.top
  words : ∀ i ∈ S, c'.arena.word ⟨c.arena.active, i⟩ = c.arena.word ⟨c.arena.active, i⟩

/-- The words at the offsets `S`, all of them in use, decide what is asked. -/
structure RestsOn {α : Type} (c : Collector) (S : Set Nat) (ask : Collector → α) : Prop where
  inUse : ∀ i ∈ S, i < c.cursor.top ∧ i < c.arena.spaceWords
  decides : ∀ c', c.Alike c' S → ask c' = ask c

section
variable {c c' : Collector} {r : Ref} {i o : Nat} {loc : Location} {h : Header} {S T : Set Nat}

theorem Refers.toNat (x : c.Refers r o) :
    o < c.arena.spaceWords ∧ r.addr.toNat = c.arena.layout.start c.arena.active + o * wordBytes := by
  obtain ⟨ho, he⟩ := Layout.locate_eq_some_iff.mp x
  refine ⟨ho, ?_⟩
  rw [he]
  exact c.arena.layout.toNat_address ho

/-- Words of the half are counted from a reference without wrapping. -/
theorem Refers.unwrapped (x : c.Refers r o) {j : Nat} (hj : o + j < c.arena.spaceWords) : o + j < UInt64.size ∧
    (c.arena.address ⟨c.arena.active, o + j⟩).toNat = r.addr.toNat + j * wordBytes := by
  refine ⟨Nat.lt_trans hj c.arena.layout.spaceWords_lt, ?_⟩
  have ha : (c.arena.address ⟨c.arena.active, o + j⟩).toNat = _ := c.arena.layout.toNat_address hj
  rw [ha, x.toNat.2, Nat.add_mul, Nat.add_assoc]

namespace Alike

theorem mono (A : c.Alike c' T) (h : S ⊆ T) : c.Alike c' S :=
  ⟨A.layout, A.active, A.top, fun i hi => A.words i (h hi)⟩

theorem wordLocation (A : c.Alike c' S) (r : Ref) (i : Nat) : c'.wordLocation r i = c.wordLocation r i :=
  wordLocation_congr A.layout A.active A.top r i

theorem read (A : c.Alike c' S) (hi : i ∈ S) : c'.arena.read ⟨c.arena.active, i⟩ = c.arena.read ⟨c.arena.active, i⟩ :=
  read_congr A.layout A.active fun _ => A.words i hi

theorem checkObject (A : c.Alike c' S) (hc : c.checkObject r = .ok (⟨c.arena.active, o⟩, h)) (h0 : o ∈ S)
    (h1 : o + 1 ∈ S) : c'.checkObject r = .ok (⟨c.arena.active, o⟩, h) := by
  obtain ⟨o', hloc, x, hend⟩ := checkObject_eq_ok_iff.mp hc
  cases hloc
  refine checkObject_eq_ok_iff.mpr ⟨o, by rw [A.active], ⟨?located, ?below, ?header, ?inside⟩, ?whole⟩
  case located =>
    unfold Arena.locate
    rw [A.layout, A.active]
    exact x.located
  case below => exact A.top.symm ▸ x.below
  case header =>
    rw [A.active]
    exact (congrArg₂ Header.decode (A.words o h0) (A.words (o + 1) h1)).trans x.header
  case inside =>
    unfold Arena.spaceWords
    rw [A.layout]
    exact x.inside
  case whole => exact A.top.symm ▸ hend

end Alike

/-! ## Readings -/

theorem exists_of_checkObject (hc : c.checkObject r = .ok (loc, h)) : ∃ o, loc = ⟨c.arena.active, o⟩ ∧ c.Refers r o ∧
    o + h.size ≤ c.cursor.top ∧ o + h.size ≤ c.arena.spaceWords := by
  obtain ⟨o, hloc, x, hend⟩ := checkObject_eq_ok_iff.mp hc
  exact ⟨o, hloc, x.located, hend, x.inside⟩

namespace RestsOn

variable {α β : Type} {ask : Collector → α}

theorem map (R : c.RestsOn S ask) (f : α → β) : c.RestsOn S fun d => f (ask d) :=
  ⟨R.inUse, fun c' A => congrArg f (R.decides c' A)⟩

theorem checkObject (hc : c.checkObject r = .ok (⟨c.arena.active, o⟩, h)) :
    c.RestsOn {o, o + 1} fun d => d.checkObject r := by
  obtain ⟨o', hloc, _, htop, hspace⟩ := exists_of_checkObject hc
  cases hloc
  have hsize := h.headerWords_le_size
  unfold headerWords at hsize
  refine ⟨fun i hi => ?_, fun c' A => ?_⟩
  · rcases hi with rfl | rfl
    · exact ⟨by omega, by omega⟩
    · exact ⟨by omega, by omega⟩
  · rw [hc]
    exact A.checkObject hc (Set.mem_insert ..) (Set.mem_insert_of_mem _ rfl)

theorem header (hc : c.checkObject r = .ok (⟨c.arena.active, o⟩, h)) : c.RestsOn {o, o + 1} fun d => d.header r :=
  (checkObject hc).map (Except.map Prod.snd)

theorem headerTagged (hc : c.checkObject r = .ok (⟨c.arena.active, o⟩, h)) (t : Tag) :
    c.RestsOn {o, o + 1} fun d => d.headerTagged r t := by
  refine ⟨(header hc).inUse, fun c' A => ?_⟩
  have hh : c'.header r = c.header r := (header hc).decides c' A
  unfold Collector.headerTagged
  rw [hh]

theorem slotLocation (hc : c.checkObject r = .ok (⟨c.arena.active, o⟩, h)) (i : Nat) :
    c.RestsOn {o, o + 1} fun d => d.slotLocation r i := by
  refine ⟨(checkObject hc).inUse, fun c' A => ?_⟩
  have hh : c'.checkObject r = c.checkObject r := (checkObject hc).decides c' A
  unfold Collector.slotLocation
  rw [hh]

theorem readWord (x : c.Refers r o) (ht : o + i < c.cursor.top) (hs : o + i < c.arena.spaceWords) :
    c.RestsOn {o + i} fun d => d.readWord r i := by
  refine ⟨fun k hk => ?_, fun c' A => ?_⟩
  · cases hk
    exact ⟨ht, hs⟩
  · have hl : c.wordLocation r i = .ok ⟨c.arena.active, o + i⟩ := wordLocation_eq_ok_iff.mpr ⟨o, x, ht, rfl⟩
    unfold Collector.readWord
    rw [A.wordLocation, hl]
    exact A.read rfl

end RestsOn

/-- The object that a slot belongs to is a vector longer than its index. -/
theorem exists_of_slot (hs : c.slotLocation r i = .ok loc) : ∃ o h, loc = ⟨c.arena.active, o + (headerWords + i)⟩ ∧
    c.checkObject r = .ok (⟨c.arena.active, o⟩, h) ∧ c.vectorLength r = .ok h.slotCount ∧ i < h.slotCount := by
  obtain ⟨o, h, x, hend, hi, hloc⟩ := exists_of_slotLocation hs
  have hc : c.checkObject r = .ok (⟨c.arena.active, o⟩, h) := checkObject_eq_ok_iff.mpr ⟨o, rfl, x, hend⟩
  have htag : h.tag = .vector := by
    unfold Header.slotCount at hi
    split at hi
    · assumption
    · exact absurd hi (Nat.not_lt_zero i)
  exact ⟨o, h, hloc, hc, vectorLength_of_checkObject hc htag, hi⟩

theorem RestsOn.vectorGet (hs : c.slotLocation r i = .ok ⟨c.arena.active, o + (headerWords + i)⟩)
    (hc : c.checkObject r = .ok (⟨c.arena.active, o⟩, h)) :
    c.RestsOn {o, o + 1, o + (headerWords + i)} fun d => d.vectorGet r i := by
  obtain ⟨o', h', hloc, hc', _, hi⟩ := exists_of_slot hs
  rw [hc] at hc'
  cases hc'
  obtain ⟨o', hloc', _, htop, hspace⟩ := exists_of_checkObject hc
  cases hloc'
  have hsize := h.size_eq
  refine ⟨fun k hk => ?_, fun c' A => ?_⟩
  · rcases hk with rfl | rfl | rfl
    · exact (checkObject hc).inUse _ (Set.mem_insert ..)
    · exact (checkObject hc).inUse _ (Set.mem_insert_of_mem _ rfl)
    · exact ⟨by omega, by omega⟩
  · have hl : c'.slotLocation r i = c.slotLocation r i := by
      refine (slotLocation hc i).decides c' (A.mono ?_)
      exact Set.insert_subset_insert (Set.singleton_subset_iff.mpr (Set.mem_insert ..))
    unfold Collector.vectorGet
    rw [hl, hs]
    simp only [bind, Except.bind]
    rw [A.read (Set.mem_insert_of_mem _ (Set.mem_insert_of_mem _ rfl))]

theorem RestsOn.value (hc : c.checkObject r = .ok (⟨c.arena.active, o⟩, h)) :
    c.RestsOn {k | o ≤ k ∧ k < o + h.size} fun d => d.value r := by
  obtain ⟨o', hloc, _, htop, hspace⟩ := exists_of_checkObject hc
  cases hloc
  have hsize := h.size_eq
  unfold headerWords at hsize
  refine ⟨fun k hk => ⟨Nat.lt_of_lt_of_le hk.2 htop, Nat.lt_of_lt_of_le hk.2 hspace⟩, fun c' A => ?_⟩
  have hc' := A.checkObject hc ⟨Nat.le_refl o, by omega⟩ ⟨Nat.le_succ o, by omega⟩
  have hslots : c'.readWords ⟨c.arena.active, o + headerWords⟩ h.slotCount =
      c.readWords ⟨c.arena.active, o + headerWords⟩ h.slotCount := by
    have hfits : o + headerWords + h.slotCount ≤ c.arena.spaceWords := by unfold headerWords; omega
    have hfits' : o + headerWords + h.slotCount ≤ c'.arena.spaceWords := by
      unfold Arena.spaceWords
      rw [A.layout]
      exact hfits
    have hopen : c'.arena.isOpen c.arena.active = true := A.active ▸ c'.arena.isOpen_active
    rw [c.readWords_ok hfits c.arena.isOpen_active, c'.readWords_ok hfits' hopen]
    refine congrArg Except.ok (List.map_congr_left fun i hi => A.words _ ⟨?_, ?_⟩)
    · exact Nat.le_trans (Nat.le_add_right ..) (Nat.le_add_right ..)
    · have hi := List.mem_range.mp hi
      show o + headerWords + i < o + h.size
      unfold headerWords
      omega
  unfold Collector.value
  rw [hc', hc]
  simp only [bind, Except.bind, Location.add]
  rw [hslots]

/-! ## What is accepted -/

theorem readWord_ok {j : Nat} (x : c.Refers r o) (ht : o + j < c.cursor.top) (hs : o + j < c.arena.spaceWords) :
    c.readWord r j = .ok (c.arena.word ⟨c.arena.active, o + j⟩) := by
  unfold readWord
  rw [wordLocation_eq_ok_iff.mpr ⟨o, x, ht, rfl⟩]
  exact Arena.read_eq_ok_iff.mpr ⟨hs, c.arena.isOpen_active, rfl⟩

theorem exists_of_map {ε α β : Type} {f : α → β} {x : Except ε α} {b : β} (hb : x.map f = .ok b) : ∃ a, x = .ok a := by
  cases x with
  | error e => cases hb
  | ok a => exact ⟨a, rfl⟩

theorem checkObject_of_header {h : Header} (hh : c.header r = .ok h) :
    ∃ o, c.Refers r o ∧ c.checkObject r = .ok (⟨c.arena.active, o⟩, h) := by
  unfold header at hh
  obtain ⟨⟨loc, h'⟩, hc⟩ := exists_of_map hh
  obtain ⟨o, rfl, x, _⟩ := exists_of_checkObject hc
  rw [hc] at hh
  cases hh
  exact ⟨o, x, hc⟩

theorem header_of_headerTagged {t : Tag} {h : Header} (hh : c.headerTagged r t = .ok h) : c.header r = .ok h := by
  unfold headerTagged at hh
  cases hc : c.header r with
  | error e => simp [hc, bind, Except.bind] at hh
  | ok h' =>
    simp only [hc, bind, Except.bind] at hh
    split at hh
    · exact hh
    · cases hh

/-- What is read through a reference is decided by words in use: by those of a header, by a slot as well
or by all words of the object; or by one word of its own. They are counted without wrapping. -/
structure Confined (c : Collector) (r : Ref) (i : Nat) : Prop where
  header : ∀ h, c.header r = .ok h → ∃ o, c.Refers r o ∧ c.RestsOn {o, o + 1} fun d => d.header r
  tag : ∀ t, c.tagOf r = .ok t → ∃ o, c.Refers r o ∧ c.RestsOn {o, o + 1} fun d => d.tagOf r
  int : ∀ v, c.intValue r = .ok v → ∃ o, c.Refers r o ∧ c.RestsOn {o, o + 1} fun d => d.intValue r
  bool : ∀ v, c.boolValue r = .ok v → ∃ o, c.Refers r o ∧ c.RestsOn {o, o + 1} fun d => d.boolValue r
  length : ∀ n, c.vectorLength r = .ok n → ∃ o, c.Refers r o ∧ c.RestsOn {o, o + 1} fun d => d.vectorLength r
  slot : ∀ v, c.vectorGet r i = .ok v → ∃ o n, c.Refers r o ∧ c.vectorLength r = .ok n ∧ i < n ∧
    c.RestsOn {o, o + 1, o + (headerWords + i)} fun d => d.vectorGet r i
  value : ∀ v, c.value r = .ok v → ∃ o h, c.Refers r o ∧ c.header r = .ok h ∧
    c.RestsOn {k | o ≤ k ∧ k < o + h.size} fun d => d.value r
  word : ∀ w, c.readWord r i = .ok w → ∃ o, c.Refers r o ∧ c.RestsOn {o + i} fun d => d.readWord r i
  unwrapped : ∀ o j, c.Refers r o → o + j < c.arena.spaceWords → o + j < UInt64.size ∧
    (c.arena.address ⟨c.arena.active, o + j⟩).toNat = r.addr.toNat + j * wordBytes
  /-- The end of a half, which is named when it cuts a header. -/
  unwrappedEnd : c.arena.layout.base + c.arena.layout.mappedBytes < UInt64.size → ∀ half,
    (c.arena.address ⟨half, c.arena.spaceWords⟩).toNat = c.arena.layout.start half + c.arena.spaceWords * wordBytes

theorem confined (c : Collector) (r : Ref) (i : Nat) : c.Confined r i := by
  have htagged : ∀ t h, c.headerTagged r t = .ok h → ∃ o, c.Refers r o ∧
      c.RestsOn {o, o + 1} fun d => d.headerTagged r t := by
    intro t h hh
    obtain ⟨o, x, hc⟩ := checkObject_of_header (header_of_headerTagged hh)
    exact ⟨o, x, .headerTagged hc t⟩
  refine ⟨?header, ?tag, ?int, ?bool, ?length, ?slot, ?value, ?word, fun o j x hj => x.unwrapped hj,
    fun hend half => c.arena.layout.toNat_address_end hend half⟩
  case header =>
    intro h hh
    obtain ⟨o, x, hc⟩ := checkObject_of_header hh
    exact ⟨o, x, .header hc⟩
  case tag =>
    intro t ht
    obtain ⟨h, hh⟩ := exists_of_map ht
    obtain ⟨o, x, hc⟩ := checkObject_of_header hh
    exact ⟨o, x, (RestsOn.header hc).map (Except.map Header.tag)⟩
  case int =>
    intro v hv
    obtain ⟨h, hh⟩ := exists_of_map hv
    obtain ⟨o, x, R⟩ := htagged _ h hh
    exact ⟨o, x, R.map (Except.map fun h => h.second.toInt64)⟩
  case bool =>
    intro v hv
    obtain ⟨h, hh⟩ := exists_of_map hv
    obtain ⟨o, x, R⟩ := htagged _ h hh
    exact ⟨o, x, R.map (Except.map fun h => h.second != 0)⟩
  case length =>
    intro n hn
    obtain ⟨h, hh⟩ := exists_of_map hn
    obtain ⟨o, x, R⟩ := htagged _ h hh
    exact ⟨o, x, R.map (Except.map Header.slotCount)⟩
  case slot =>
    intro v hv
    unfold vectorGet at hv
    cases hs : c.slotLocation r i with
    | error e => simp [hs, bind, Except.bind] at hv
    | ok loc =>
      obtain ⟨o, h, rfl, hc, hlen, hi⟩ := exists_of_slot hs
      obtain ⟨o', hloc, x, _⟩ := exists_of_checkObject hc
      cases hloc
      exact ⟨o, h.slotCount, x, hlen, hi, .vectorGet hs hc⟩
  case value =>
    intro v hv
    unfold Collector.value at hv
    cases hc : c.checkObject r with
    | error e => simp [hc, bind, Except.bind] at hv
    | ok found =>
      obtain ⟨loc, h⟩ := found
      obtain ⟨o, rfl, x, _⟩ := exists_of_checkObject hc
      refine ⟨o, h, x, ?_, .value hc⟩
      unfold Collector.header
      rw [hc]
      rfl
  case word =>
    intro w hw
    unfold readWord at hw
    cases hl : c.wordLocation r i with
    | error e => simp [hl, bind, Except.bind] at hw
    | ok loc =>
      obtain ⟨o, x, ht, rfl⟩ := wordLocation_eq_ok_iff.mp hl
      simp only [hl, bind, Except.bind] at hw
      exact ⟨o, x, .readWord x ht (Arena.read_eq_ok_iff.mp hw).1⟩

end

end Collector

/-! ## Writing -/

/-- The sessions differ in one word of memory, the one `j` words after the one referred to, which is now `w`. -/
structure Session.Stores (s : Session) (r : Ref) (j : Nat) (w : Word) (s' : Session) : Prop where
  rest : s' = { s with collector := { s.collector with
    arena := { s.collector.arena with memory := s'.collector.arena.memory } } }
  word : s'.collector.readWord r j = .ok w
  memory : ∀ k, s'.collector.arena.memory.read k =
    if s.collector.arena.layout.base + k * wordBytes = r.addr.toNat + j * wordBytes then w
    else s.collector.arena.memory.read k

section
variable {s s' : Session} {r : Ref} {i j o : Nat} {w : Word} {value : Option Ref}

theorem Session.stores_of_write {b : Arena} (x : s.collector.Refers r o) (ht : o + j < s.collector.cursor.top)
    (hb : s.collector.arena.write ⟨s.collector.arena.active, o + j⟩ w = .ok b) :
    s.Stores r j w { s with collector := { s.collector with arena := b } } := by
  obtain ⟨hs, rfl⟩ := Arena.write_eq hb
  have haddr := x.toNat.2
  refine ⟨rfl, ?_, fun k => ?_⟩
  · let arena := { s.collector.arena with
      memory := s.collector.arena.memory.write (s.collector.arena.layout.cell ⟨s.collector.arena.active, o + j⟩) w }
    have hread := Collector.readWord_ok (c := { s.collector with arena }) x ht hs
    exact hread.trans (congrArg Except.ok (Memory.read_write_self ..))
  · have hcell := s.collector.arena.layout.base_add_cell ⟨s.collector.arena.active, o + j⟩
    dsimp only at hcell ⊢
    rw [Memory.read_write]
    refine if_congr ?_ rfl rfl
    unfold wordBytes at *
    omega

/-- The session with another collector that is in the same phase. -/
def Session.inPlace (s : Session) (d : Collector) : Session :=
  { s with collector := { d with phase := s.collector.phase } }

/-- The offsets of the header of a reference. -/
def Collector.headerOffsets (c : Collector) (value : Option Ref) : Set Nat :=
  {k | ∃ v p, value = some v ∧ c.Refers v p ∧ (k = p ∨ k = p + 1)}

/-- What is written through a reference goes into words in use, and words in use decide that it is. -/
structure Session.WritesConfined (s : Session) (r : Ref) (i : Nat) (value : Option Ref) (w : Word) : Prop where
  vectorSet : ∀ s', (Mutator.vectorSet r i value).run s = .ok () s' → ∃ o n, s.collector.Refers r o ∧
    s.collector.vectorLength r = .ok n ∧ i < n ∧ s.Stores r (headerWords + i) (Ref.slotWord value) s' ∧
    s.collector.RestsOn ({o, o + 1, o + (headerWords + i)} ∪ s.collector.headerOffsets value) fun d =>
      answer ((Mutator.vectorSet r i value).run (s.inPlace d))
  writeWord : ∀ s', (Mutator.writeWord r i w).run s = .ok () s' → ∃ o, s.collector.Refers r o ∧ s.Stores r i w s' ∧
    s.collector.RestsOn {o + i} fun d => answer ((Mutator.writeWord r i w).run (s.inPlace d))

theorem Session.writesConfined (s : Session) (r : Ref) (i : Nat) (value : Option Ref) (w : Word) :
    s.WritesConfined r i value w := by
  refine ⟨fun s' h => ?_, fun s' h => ?_⟩
  · obtain ⟨hp, loc, b, hl, hv, hb, rfl⟩ := Mutator.exists_of_vectorSet h
    obtain ⟨o, hd, rfl, hc, hlen, hi⟩ := Collector.exists_of_slot hl
    obtain ⟨o', hloc, x, htop, hspace⟩ := Collector.exists_of_checkObject hc
    cases hloc
    have hsize := hd.size_eq
    have hslot := Collector.RestsOn.vectorGet hl hc
    refine ⟨o, hd.slotCount, x, hlen, hi, Session.stores_of_write x (by omega) hb, fun k hk => ?_, fun d A => ?_⟩
    · rcases hk with hk | ⟨v, p, hvalue, y, hk⟩
      · exact hslot.inUse k hk
      · obtain ⟨⟨loc, hd'⟩, hc'⟩ := hv v hvalue
        obtain ⟨q, rfl, z, _⟩ := Collector.exists_of_checkObject hc'
        have hpq : p = q := congrArg Location.offset (Option.some.inj (y.symm.trans z))
        exact (Collector.RestsOn.checkObject hc').inUse k (hpq ▸ hk)
    · have hl' : (s.inPlace d).collector.slotLocation r i = .ok ⟨s.collector.arena.active, o + (headerWords + i)⟩ := by
        refine ((Collector.RestsOn.slotLocation hc i).decides d (A.mono fun k hk => Or.inl ?_)).trans hl
        exact Set.insert_subset_insert (Set.singleton_subset_iff.mpr (Set.mem_insert ..)) hk
      have hv' : ∀ v, value = some v → ∃ found, (s.inPlace d).collector.checkObject v = .ok found := by
        intro v hvalue
        obtain ⟨⟨loc, hd'⟩, hc'⟩ := hv v hvalue
        obtain ⟨q, rfl, z, _⟩ := Collector.exists_of_checkObject hc'
        exact ⟨_, A.checkObject hc' (Or.inr ⟨v, q, hvalue, z, Or.inl rfl⟩) (Or.inr ⟨v, q, hvalue, z, Or.inr rfl⟩)⟩
      obtain ⟨_, _, _, hrun⟩ := Mutator.run_vectorSet_ok (s := s.inPlace d) hp hl' hv'
      exact (congrArg answer hrun).trans (congrArg answer h).symm
  · obtain ⟨hp, loc, b, hl, hb, rfl⟩ := Mutator.exists_of_writeWord h
    obtain ⟨o, x, ht, rfl⟩ := Collector.wordLocation_eq_ok_iff.mp hl
    have hs : o + i < s.collector.arena.spaceWords := (Arena.write_eq hb).1
    refine ⟨o, x, Session.stores_of_write x ht hb, fun k hk => ?_, fun d A => ?_⟩
    · cases hk
      exact ⟨ht, hs⟩
    · have hl' : (s.inPlace d).collector.wordLocation r i = .ok ⟨s.collector.arena.active, o + i⟩ :=
        (A.wordLocation r i).trans hl
      have hs' : o + i < d.arena.spaceWords := by
        unfold Arena.spaceWords
        rw [A.layout]
        exact hs
      have hopen : d.arena.isOpen s.collector.arena.active = true := A.active ▸ d.arena.isOpen_active
      obtain ⟨b', hb', _⟩ := @Arena.write_ok d.arena ⟨s.collector.arena.active, o + i⟩ w hs' hopen
      have hrun := Mutator.run_writeWord_ok (s := s.inPlace d) hp hl' hb'
      exact (congrArg answer hrun).trans (congrArg answer h).symm

end

/-! ## Addresses of no word in use -/

/-- The reference is the address of no word in use, nor of a word of the other half. -/
inductive Collector.Wordless (c : Collector) (r : Ref) : Prop
  | unaligned : r.addr.toNat % wordBytes ≠ 0 → Wordless c r
  | foreign : r.addr.toNat < c.arena.layout.base ∨ c.arena.layout.base + c.arena.layout.mappedBytes ≤ r.addr.toNat →
      Wordless c r
  | padding (h : Half) : c.arena.layout.start h + c.arena.spaceWords * wordBytes ≤ r.addr.toNat →
      r.addr.toNat < c.arena.layout.start h + c.arena.layout.spaceBytes → Wordless c r
  | unallocated {o : Nat} : c.Refers r o → c.cursor.top ≤ o → Wordless c r

section
variable {s : Session} {c : Collector} {r : Ref} {i : Nat} {w : Word} {value : Option Ref} {e : Error}

theorem Collector.Wordless.wordLocation (x : c.Wordless r) (i : Nat) :
    c.wordLocation r i = .error (.invalidReference r.addr) := by
  have hnone : c.arena.locate r.addr = none → c.wordLocation r i = .error (.invalidReference r.addr) := by
    intro hl
    unfold Collector.wordLocation
    rw [hl]
  cases x with
  | unaligned h => exact hnone (Layout.locate_eq_none_iff.mpr (Or.inl h))
  | foreign h => exact hnone (Layout.locate_eq_none_iff.mpr (Or.inr (Or.inl h)))
  | padding half h h' => exact hnone (Layout.locate_eq_none_iff.mpr (Or.inr (Or.inr ⟨half, h, h'⟩)))
  | unallocated hl ht => rw [wordLocation_located hl, if_pos (Nat.le_trans ht (Nat.le_add_right ..))]

/-- An address is that of a word in use, of a word of the other half, or of neither. -/
theorem Collector.address_classes (c : Collector) (r : Ref) : (∃ o, c.Refers r o ∧ o < c.cursor.top) ∨
    (∃ o < c.arena.spaceWords, r.addr = c.arena.address ⟨c.arena.inactive, o⟩) ∨ c.Wordless r := by
  cases hl : c.arena.locate r.addr with
  | none =>
    refine Or.inr (Or.inr ?_)
    rcases Layout.locate_eq_none_iff.mp hl with h | h | ⟨half, h, h'⟩
    · exact .unaligned h
    · exact .foreign h
    · exact .padding half h h'
  | some loc =>
    obtain ⟨half, o⟩ := loc
    rcases Half.eq_or_eq_other c.arena.active half with rfl | rfl
    · by_cases ht : o < c.cursor.top
      · exact Or.inl ⟨o, hl, ht⟩
      · exact Or.inr (Or.inr (.unallocated hl (Nat.not_lt.mp ht)))
    · exact Or.inr (Or.inl ⟨o, Layout.locate_eq_some_iff.mp hl⟩)

/-- Nothing is read or written through the reference, with the same complaint in every case. -/
structure Session.RefusesWith (s : Session) (r : Ref) (i : Nat) (value : Option Ref) (w : Word) (e : Error) : Prop where
  readings : s.collector.readings r = .refused e
  vectorSet : s.collector.phase ≠ .poisoned → (Mutator.vectorSet r i value).run s = .error e s
  writeWord : s.collector.phase ≠ .poisoned → (Mutator.writeWord r i w).run s = .error e s

theorem Session.refusesWith (h : ∀ i, s.collector.wordLocation r i = .error e) (i : Nat) (value : Option Ref) (w : Word) :
    s.RefusesWith r i value w e where
  readings := Collector.readings_of_wordLocation h
  vectorSet hp := Mutator.run_vectorSet_unlocated hp
    (Collector.slotLocation_of_checkObject (Collector.checkObject_of_wordLocation h) i) value
  writeWord hp := Mutator.run_writeWord_unlocated hp (h i) w

end

/-- Looking at an object and writing to it succeed only within the words in use, whatever the words of the
heap and the phase are. An address of the other half is refused as protected, whether that half is open or
not, every other address that is not of a word in use as invalid, and all writing after a failed pass. -/
theorem access_confined (s : Session) (r : Ref) (i : Nat) (value : Option Ref) (w : Word) :
    s.collector.Confined r i ∧ s.WritesConfined r i value w ∧
    (∀ o < s.collector.arena.spaceWords, r.addr = s.collector.arena.address ⟨s.collector.arena.inactive, o⟩ →
      s.RefusesWith r i value w (.protectedAccess r.addr)) ∧
    (s.collector.Wordless r → s.RefusesWith r i value w (.invalidReference r.addr)) ∧
    ((∃ o, s.collector.Refers r o ∧ o < s.collector.cursor.top) ∨
      (∃ o < s.collector.arena.spaceWords, r.addr = s.collector.arena.address ⟨s.collector.arena.inactive, o⟩) ∨
      s.collector.Wordless r) ∧
    (s.collector.phase = .poisoned → (Mutator.vectorSet r i value).run s = .error .poisoned s ∧
      (Mutator.writeWord r i w).run s = .error .poisoned s) := by
  refine ⟨s.collector.confined r i, s.writesConfined r i value w, fun o ho hr => ?_, fun x => ?_,
    s.collector.address_classes r, fun hp => ⟨?_, ?_⟩⟩
  · have hl : s.collector.arena.locate r.addr = some ⟨s.collector.arena.inactive, o⟩ :=
      Layout.locate_eq_some_iff.mpr ⟨ho, hr⟩
    exact Session.refusesWith (Collector.wordLocation_vacated hl (Half.other_ne _)) i value w
  · exact Session.refusesWith x.wordLocation i value w
  · exact Mutator.run_ensureUsable_poisoned hp _
  · exact Mutator.run_ensureUsable_poisoned hp _

/-- The vector that refers to itself. -/
def Ref.looped : Ref := (Session.looped.collector.roots.get? 0).get (by decide +kernel)

theorem access_confined_looped : ∃ o v s', Session.looped.collector.Refers .looped o ∧
    Session.looped.collector.vectorGet .looped 1 = .ok v ∧
    Session.looped.collector.RestsOn {o, o + 1, o + (headerWords + 1)} (fun d => d.vectorGet .looped 1) ∧
    (Mutator.vectorSet .looped 1 none).run .looped = .ok () s' ∧ Session.looped.Stores .looped (headerWords + 1) 0 s' := by
  obtain ⟨hreads, hwrites, _⟩ := access_confined .looped .looped 1 none 0
  have hget : (Session.looped.collector.vectorGet .looped 1).toOption.isSome = true := by decide +kernel
  obtain ⟨_, s', hrun⟩ := exists_of_isSome (r := (Mutator.vectorSet .looped 1 none).run .looped) (by decide +kernel)
  cases hv : Session.looped.collector.vectorGet .looped 1 with
  | error e =>
    rw [hv] at hget
    cases hget
  | ok v =>
    obtain ⟨o, _, x, _, _, R⟩ := hreads.slot v hv
    obtain ⟨_, _, _, _, _, hstores, _⟩ := hwrites.vectorSet s' hrun
    exact ⟨o, v, s', x, rfl, R, hrun, hstores⟩

end Semispace

import Semispace.Proofs.Collector.Normal

/-!
# Parcels

What an allocation hands out lies apart from everything handed out before. A parcel that holds a record
owns all of its words. One of a single word owns less than a header takes: what is read there is the
header of an integer, and the second half of that belongs to the next parcel. So the objects that a
pass meets may overlap, each of them by one word at most.
-/

namespace Semispace

/-- The start of what was handed out: a record, or a single word. -/
structure Parcel where
  offset : Nat
  header : Option Header
  deriving Inhabited

/-- Words that a parcel needs for itself. -/
def Parcel.words (p : Parcel) : Nat := (p.header.map Header.size).getD 1

theorem Parcel.words_pos (p : Parcel) : 0 < p.words := by
  obtain ⟨o, _ | h⟩ := p
  · exact Nat.one_pos
  · exact h.size_pos

theorem Parcel.words_of_header {p : Parcel} {h : Header} (hh : p.header = some h) : p.words = h.size := by
  rw [Parcel.words, hh]
  rfl

theorem Parcel.slot_lt {p : Parcel} {h : Header} {i : Nat} (hh : p.header = some h) (hi : i < h.slotCount) :
    headerWords + i < p.words := by
  rw [words_of_header hh, Header.size_eq]
  exact Nat.add_lt_add_left hi headerWords

namespace Arena

/-- The word is the address of a parcel. -/
def Given (a : Arena) (ps : Set Parcel) (w : Word) : Prop :=
  ∃ p ∈ ps, w = a.address ⟨a.active, p.offset⟩

/-- The word is the address of a parcel whose header ends below `top`. -/
def Whole (a : Arena) (ps : Set Parcel) (top : Nat) (w : Word) : Prop :=
  ∃ p ∈ ps, w = a.address ⟨a.active, p.offset⟩ ∧ p.offset + headerWords ≤ top

/-- The parcels `ps` lie apart in the active half below `top`. Their slots refer to parcels or to nothing. -/
structure Parcelled (a : Arena) (ps : Set Parcel) (top : Nat) : Prop where
  top_le : top ≤ a.spaceWords
  end_le : ∀ p ∈ ps, p.offset + p.words ≤ top
  apart : ∀ p ∈ ps, ∀ q ∈ ps, p = q ∨ p.offset + p.words ≤ q.offset ∨ q.offset + q.words ≤ p.offset
  record : ∀ p ∈ ps, ∀ h, p.header = some h → a.headerAt ⟨a.active, p.offset⟩ = some h
  single : ∀ p ∈ ps, p.header = none → a.word ⟨a.active, p.offset⟩ = 0
  slots : ∀ p ∈ ps, ∀ h, p.header = some h → ∀ i < h.slotCount,
    a.slotAt ⟨a.active, p.offset⟩ i = 0 ∨ a.Whole ps top (a.slotAt ⟨a.active, p.offset⟩ i)

variable {a b : Arena} {ps qs : Set Parcel} {top top' : Nat} {w : Word} {p q : Parcel}

theorem Whole.given (h : a.Whole ps top w) : a.Given ps w := by
  obtain ⟨p, hp, hw, _⟩ := h
  exact ⟨p, hp, hw⟩

theorem Given.congr (h : a.Given ps w) (hl : b.layout = a.layout) (ha : b.active = a.active) (hs : ps ⊆ qs) :
    b.Given qs w := by
  obtain ⟨p, hp, rfl⟩ := h
  refine ⟨p, hs hp, ?_⟩
  unfold Arena.address
  rw [hl, ha]

theorem Whole.congr (h : a.Whole ps top w) (hl : b.layout = a.layout) (ha : b.active = a.active) (hs : ps ⊆ qs)
    (ht : top ≤ top') : b.Whole qs top' w := by
  obtain ⟨p, hp, rfl, hend⟩ := h
  refine ⟨p, hs hp, ?_, hend.trans ht⟩
  unfold Arena.address
  rw [hl, ha]

namespace Parcelled

/-! ## What a pass meets -/

section
variable (P : a.Parcelled ps top)
include P

theorem offset_lt (hp : p ∈ ps) : p.offset < a.spaceWords := by
  have h1 := P.end_le p hp
  have h2 := p.words_pos
  have h3 := P.top_le
  omega

theorem address_inj (hp : p ∈ ps) (hq : q ∈ ps)
    (h : a.address ⟨a.active, p.offset⟩ = a.address ⟨a.active, q.offset⟩) : p = q := by
  have ho : p.offset = q.offset := congrArg Location.offset (address_injective (P.offset_lt hp) (P.offset_lt hq) h)
  have h1 := p.words_pos
  have h2 := q.words_pos
  exact (P.apart p hp q hq).resolve_right (by omega)

/-- What is found at the address of a parcel is found at its offset. -/
theorem offset_eq (hp : p ∈ ps) {o : Nat} {h : Header} (x : a.ObjectAt top' (a.address ⟨a.active, p.offset⟩) o h) :
    o = p.offset := by
  have hl : a.locate (a.address ⟨a.active, p.offset⟩) = some ⟨a.active, p.offset⟩ :=
    a.layout.locate_address (P.offset_lt hp)
  exact congrArg Location.offset (Option.some.inj (x.located.symm.trans hl))

/-- A parcel is an object once there is room for its header. -/
theorem objectAt (hp : p ∈ ps) (hend : p.offset + headerWords ≤ top) :
    ∃ h, a.ObjectAt top (a.address ⟨a.active, p.offset⟩) p.offset h ∧
      (p.header = some h ∨ p.header = none ∧ h.slotCount = 0) := by
  have hlt := P.offset_lt hp
  have hle := P.top_le
  have hl : a.locate (a.address ⟨a.active, p.offset⟩) = some ⟨a.active, p.offset⟩ := a.layout.locate_address hlt
  have hbelow : p.offset < top := by
    unfold headerWords at hend
    omega
  cases hh : p.header with
  | some h =>
    have hsize := P.end_le p hp
    rw [Parcel.words_of_header hh] at hsize
    exact ⟨h, ⟨hl, hbelow, P.record p hp h hh, hsize.trans hle⟩, Or.inl rfl⟩
  | none =>
    -- a zero is the tag of an integer, whatever word comes next
    refine ⟨⟨.int, a.word ⟨a.active, p.offset + 1⟩⟩, ⟨hl, hbelow, ?_, hend.trans hle⟩, Or.inr ⟨rfl, rfl⟩⟩
    unfold headerAt
    rw [P.single p hp hh]
    rfl

theorem whole_of_reach {roots : List Ref} (hr : ∀ r ∈ roots, a.Whole ps top r.addr) (h : a.Reach roots w) :
    a.Whole ps top w := by
  induction h with
  | root hmem => exact hr _ hmem
  | @slot w o h i _ hl hh hi hz ih =>
    obtain ⟨p, hp, rfl, hend⟩ := ih
    obtain ⟨h', x, hrec⟩ := P.objectAt hp hend
    obtain ⟨rfl, rfl⟩ := x.agree hl hh
    rcases hrec with hrec | ⟨_, hnone⟩
    · exact (P.slots p hp h' hrec i hi).resolve_left hz
    · rw [hnone] at hi
      exact absurd hi (Nat.not_lt_zero i)

theorem sizeAt_le (h : a.Whole ps top w) : ∃ p ∈ ps, w = a.address ⟨a.active, p.offset⟩ ∧
    a.sizeAt w ≤ p.words + if p.header = none then 1 else 0 := by
  obtain ⟨p, hp, rfl, hend⟩ := h
  obtain ⟨h, x, hrec⟩ := P.objectAt hp hend
  refine ⟨p, hp, rfl, ?_⟩
  rw [x.sizeAt]
  rcases hrec with hrec | ⟨hrec, hnone⟩
  · rw [Parcel.words_of_header hrec]
    exact Nat.le_add_right ..
  · rw [Parcel.words, hrec, Header.size_eq, hnone]
    exact Nat.le_refl _

end

/-- Distinct objects take no more than the words in use and one more for each single word among them. -/
theorem sum_sizeAt_le (P : a.Parcelled ps top) {ws ns : List Word} (hn : ws.Nodup) (hw : ∀ w ∈ ws, a.Whole ps top w)
    (hs : ∀ p ∈ ps, p.header = none → a.address ⟨a.active, p.offset⟩ ∈ ws → a.address ⟨a.active, p.offset⟩ ∈ ns) :
    (ws.map a.sizeAt).sum ≤ top + ns.length := by
  have hparcel : ∀ w ∈ ws, ∃ p ∈ ps, w = a.address ⟨a.active, p.offset⟩ ∧
      a.sizeAt w ≤ p.words + if p.header = none then 1 else 0 := fun w h => P.sizeAt_le (hw w h)
  choose! parcel hmem haddr hsize using hparcel
  have hwords : (ws.map fun w => (parcel w).words).sum ≤ top := by
    refine sum_le_of_apart (fun w => (parcel w).offset) _ (fun w h => P.end_le _ (hmem w h)) ?_
    refine hn.imp_of_mem fun {w w'} h h' hne => (P.apart _ (hmem w h) _ (hmem w' h')).resolve_left fun heq => hne ?_
    rw [haddr w h, haddr w' h', heq]
  have hsingle : (ws.map fun w => if (parcel w).header = none then 1 else 0).sum ≤ ns.length := by
    have hcount : (ws.map fun w => if (parcel w).header = none then 1 else 0).sum =
        (ws.filter fun w => (parcel w).header = none).length := by
      rw [List.sum_map_ite]
      simp
    rw [hcount]
    refine ((hn.filter _).subperm fun w h => ?_).length_le
    obtain ⟨hin, hnone⟩ := List.mem_filter.mp h
    have he := haddr w hin
    rw [he]
    exact hs _ (hmem w hin) (of_decide_eq_true hnone) (by rw [← he]; exact hin)
  calc (ws.map a.sizeAt).sum
      ≤ (ws.map fun w => (parcel w).words + if (parcel w).header = none then 1 else 0).sum :=
        List.sum_le_sum fun w h => hsize w h
    _ = (ws.map fun w => (parcel w).words).sum + (ws.map fun w => if (parcel w).header = none then 1 else 0).sum :=
        List.sum_map_add
    _ ≤ top + ns.length := Nat.add_le_add hwords hsingle

/-! ## Changes of the words -/

/-- Parcels survive while only their slots change, to parcels or to nothing. -/
theorem congr (P : a.Parcelled ps top) (hl : b.layout = a.layout) (ha : b.active = a.active) (ht : top ≤ top')
    (hle : top' ≤ a.spaceWords) (hw : ∀ p ∈ ps, ∀ j < p.words,
      b.word ⟨b.active, p.offset + j⟩ = a.word ⟨a.active, p.offset + j⟩ ∨ headerWords ≤ j ∧
        (b.word ⟨b.active, p.offset + j⟩ = 0 ∨ a.Whole ps top' (b.word ⟨b.active, p.offset + j⟩))) :
    b.Parcelled ps top' := by
  have hhead : ∀ p ∈ ps, ∀ j < p.words, j < headerWords →
      b.word ⟨b.active, p.offset + j⟩ = a.word ⟨a.active, p.offset + j⟩ := by
    intro p hp j hj hlt
    rcases hw p hp j hj with h | ⟨h, _⟩
    · exact h
    · exact absurd h (Nat.not_le.mpr hlt)
  refine ⟨?_, fun p hp => (P.end_le p hp).trans ht, P.apart, ?record, ?single, ?slots⟩
  · unfold Arena.spaceWords
    rw [hl]
    exact hle
  case record =>
    intro p hp h hh
    have hsize : headerWords ≤ p.words := Parcel.words_of_header hh ▸ h.headerWords_le_size
    rw [← P.record p hp h hh]
    exact congrArg₂ Header.decode (hhead p hp 0 p.words_pos (by decide)) (hhead p hp 1 hsize (by decide))
  case single =>
    intro p hp hh
    exact (hhead p hp 0 p.words_pos (by decide)).trans (P.single p hp hh)
  case slots =>
    intro p hp h hh i hi
    rcases hw p hp _ (Parcel.slot_lt hh hi) with hsame | ⟨_, hnew⟩
    · have hslot : b.slotAt ⟨b.active, p.offset⟩ i = a.slotAt ⟨a.active, p.offset⟩ i := hsame
      rw [hslot]
      exact (P.slots p hp h hh i hi).imp_right fun hx => hx.congr hl ha subset_rfl ht
    · exact hnew.imp_right fun hx => hx.congr hl ha subset_rfl (Nat.le_refl _)

theorem insert (P : a.Parcelled ps top) (hfree : ∀ p ∈ ps, p.offset + p.words ≤ q.offset)
    (hend : q.offset + q.words ≤ top) (hrecord : ∀ h, q.header = some h → a.headerAt ⟨a.active, q.offset⟩ = some h)
    (hsingle : q.header = none → a.word ⟨a.active, q.offset⟩ = 0)
    (hslots : ∀ h, q.header = some h → ∀ i < h.slotCount,
      a.slotAt ⟨a.active, q.offset⟩ i = 0 ∨ a.Whole ps top (a.slotAt ⟨a.active, q.offset⟩ i)) :
    a.Parcelled (insert q ps) top where
  top_le := P.top_le
  end_le p hp := by
    rcases hp with rfl | hp
    · exact hend
    · exact P.end_le p hp
  apart p hp p' hp' := by
    rcases hp with rfl | hp <;> rcases hp' with rfl | hp'
    · exact Or.inl rfl
    · exact Or.inr (Or.inr (hfree p' hp'))
    · exact Or.inr (Or.inl (hfree p hp))
    · exact P.apart p hp p' hp'
  record p hp := by
    rcases hp with rfl | hp
    · exact hrecord
    · exact P.record p hp
  single p hp := by
    rcases hp with rfl | hp
    · exact hsingle
    · exact P.single p hp
  slots p hp h hh i hi := by
    have hmono : ∀ {w}, a.Whole ps top w → a.Whole (Insert.insert q ps) top w :=
      fun hx => hx.congr rfl rfl (Set.subset_insert q ps) (Nat.le_refl _)
    rcases hp with rfl | hp
    · exact (hslots h hh i hi).imp_right hmono
    · exact (P.slots p hp h hh i hi).imp_right hmono

end Parcelled

/-! ## After a pass -/

/-- The parcels of a heap that consists of records. -/
def parcels (rs : List (Nat × Header)) : Set Parcel := {p | ∃ e ∈ rs, p = ⟨e.1, some e.2⟩}

variable {rs : List (Nat × Header)}

theorem Normal.whole (N : a.Normal rs top) (h : a.Starts rs w) : a.Whole (parcels rs) top w := by
  obtain ⟨e, he, rfl⟩ := h
  have hend := (N.consecutive.bounds he).2
  have hsize := e.2.headerWords_le_size
  exact ⟨⟨e.1, some e.2⟩, ⟨e, he, rfl⟩, rfl, (Nat.add_le_add_left hsize _).trans hend⟩

theorem Normal.parcelled (N : a.Normal rs top) : a.Parcelled (parcels rs) top where
  top_le := N.top_le
  end_le p hp := by
    obtain ⟨e, he, rfl⟩ := hp
    exact (N.consecutive.bounds he).2
  apart p hp q hq := by
    obtain ⟨e, he, rfl⟩ := hp
    obtain ⟨e', he', rfl⟩ := hq
    rcases N.consecutive.apart he he' with rfl | h
    · exact Or.inl rfl
    · exact Or.inr h
  record p hp h hh := by
    obtain ⟨e, he, rfl⟩ := hp
    obtain rfl := Option.some.inj hh
    exact N.header e he
  single p hp hh := by
    obtain ⟨e, _, rfl⟩ := hp
    cases hh
  slots p hp h hh i hi := by
    obtain ⟨e, he, rfl⟩ := hp
    obtain rfl := Option.some.inj hh
    exact (N.slots e he i hi).imp_right N.whole

end Arena

end Semispace

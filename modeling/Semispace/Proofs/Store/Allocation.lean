import Semispace.Proofs.Collector.Objects
import Semispace.Proofs.Store.Pass

/-!
# Allocation in a represented store

Room is made for the words of an object, by a pass if need be (`Represents.cleared`). Once they are
stored there, the collector represents the store with that object (`Represents.extend`).
-/

namespace Semispace

namespace Extended

variable {c c' : Collector} {ws : List Word} (x : Extended c c' ws)
include x

/-- A record below the cursor is as it was. -/
theorem holds {o : Nat} {y : Content Ref} (h : c.arena.Holds o y) (hend : o + y.header.size ≤ c.cursor.top)
    (htop : c.cursor.top ≤ c.arena.spaceWords) : c'.arena.Holds o y := by
  have hsize := y.header.size_eq
  unfold headerWords at hsize
  refine ⟨?_, h.slotCount, ?_⟩
  · rw [← h.header]
    exact x.headerAt_old (by omega) htop
  · intro k hk
    have hc := h.slotCount
    rw [← h.slot k hk]
    exact x.word_old (o := o + (headerWords + k)) (by unfold headerWords; omega) (by unfold headerWords; omega)

end Extended

/-- The words of a content are a record that holds it. -/
theorem Extended.holds_new {c c' : Collector} {y : Content Ref} (x : Extended c c' y.words)
    (hs : y.header.slotCount = y.slots.length) : c'.arena.Holds c.cursor.top y := by
  refine ⟨?_, hs, ?_⟩
  · have h0 := x.word_new (k := 0) (by simp [Content.words])
    have h1 := x.word_new (k := 1) (by simp [Content.words])
    refine (congrArg₂ Header.decode h0 h1).trans ?_
    simp [Content.words, Header.decode, Content.header]
  · intro k hk
    apply (x.word_new (k := headerWords + k) (by simp [Content.words, headerWords]; omega)).trans
    simp only [Content.words, headerWords, Nat.add_comm 2 k, List.getElem_cons_succ, List.getElem_map]

/-- A record more. -/
theorem Extended.tiled {c c' : Collector} {rs : List (Nat × Header)} {y : Content Ref} (x : Extended c c' y.words)
    (t : c.arena.Tiled rs c.cursor.top) (htop : c.cursor.top ≤ c.arena.spaceWords)
    (hs : y.header.slotCount = y.slots.length) :
    c'.arena.Tiled (rs ++ [(c.cursor.top, y.header)]) c'.cursor.top := by
  refine ⟨?_, fun e he => ?_⟩
  · have hsize : y.header.size = y.words.length := by
      rw [Header.size_eq, hs, Content.length_words]
    rw [x.top, ← hsize]
    exact t.consecutive.snoc y.header
  · rcases List.mem_append.mp he with he | he
    · have h1 := (t.consecutive.bounds he).2
      have h2 := e.2.headerWords_le_size
      unfold headerWords at h2
      exact (x.headerAt_old (by omega) htop).trans (t.header e he)
    · rw [List.mem_singleton.mp he]
      exact (x.holds_new hs).header

theorem Extended.starts_append {c c' : Collector} {ws : List Word} (x : Extended c c' ws) (rs : List (Nat × Header))
    (h : Header) : {w | c'.arena.Starts (rs ++ [(c.cursor.top, h)]) w} =
      insert (c.arena.address ⟨c.arena.active, c.cursor.top⟩) {w | c.arena.Starts rs w} := by
  rw [Arena.starts_congr x.stored.layout x.stored.active]
  ext w
  constructor
  · rintro ⟨e, he, rfl⟩
    rcases List.mem_append.mp he with he | he
    · exact Or.inr ⟨e, he, rfl⟩
    · rw [List.mem_singleton.mp he]
      exact Or.inl rfl
  · rintro (rfl | ⟨e, he, rfl⟩)
    · exact ⟨_, List.mem_append_right _ (List.mem_singleton_self _), rfl⟩
    · exact ⟨e, List.mem_append_left _ he, rfl⟩

theorem Content.slotCount_header {ρ : Type} {y : Content ρ} (h : y.slots.length < UInt64.size) :
    y.header.slotCount = y.slots.length := by
  cases y with
  | int v => rfl
  | bool v => rfl
  | vector slots => exact UInt64.toNat_ofNat_of_lt' h

/-- How addresses change while an operation runs: not at all, unless there was a pass. -/
def Moves (place : Nat → Ref) (live : Set Nat) (c : Collector) (place' : Nat → Ref) (live' : Set Nat) (c' : Collector) :
    Prop :=
  c'.cycles = c.cycles → live ⊆ live' ∧ Set.EqOn place' place live

theorem Moves.refl {place : Nat → Ref} {live : Set Nat} {c c' : Collector} : Moves place live c place live c' :=
  fun _ => ⟨subset_rfl, fun _ _ => rfl⟩

namespace Represents

variable {st : Store} {place : Nat → Ref} {live : Set Nat} {rs : List (Nat × Header)} {c c' : Collector} {s : Session}

/-- Only the stack of the store depends on the roots. -/
theorem restack (R : Represents st place live rs c) {stack : List Nat} (ha : c'.arena = c.arena)
    (hc : c'.cursor = c.cursor) (hp : c'.phase = c.phase) (hl : ∀ i ∈ stack, i ∈ live)
    (hr : c'.roots.toList = stack.map place) (hcap : c'.roots.capacity = c.roots.capacity) :
    Represents { st with stack } place live rs c' := by
  refine ⟨?_, hp.trans R.idle, ?_, ?_, ?_, R.bounded, R.closed, hl, hr, hcap.trans R.capacity⟩
  · unfold Collector.WellFormed
    rw [hc, ha]
    exact R.wellFormed
  · rw [hc, ha]
    exact R.tiled
  · rw [ha]
    exact R.placed
  · rw [ha]
    exact R.holds

theorem congr (R : Represents st place live rs c) (ha : c'.arena = c.arena) (hc : c'.cursor = c.cursor)
    (hp : c'.phase = c.phase) (hr : c'.roots = c.roots) : Represents st place live rs c' :=
  R.restack ha hc hp R.rooted (hr ▸ R.roots) (hr ▸ rfl)

/-! ## Making room -/

/-- Room is made while the collector represents the same store, and if even that is not enough there is none. -/
theorem cleared {m : Session} {n : Nat} {xs : List CycleSummary} (R : Represents st place live rs s.collector)
    (C : s.Cleared n xs m) : ∃ place' live' rs', Represents st place' live' rs' m.collector ∧
      Moves place live s.collector place' live' m.collector ∧
      (m.collector.cursor.fits n = false →
        st.Full s.collector.arena.spaceWords n m.collector.cursor.remaining) := by
  cases C with
  | fits hf =>
    refine ⟨place, live, rs, R, .refl, fun hf' => ?_⟩
    rw [hf] at hf'
    cases hf'
  | swept _ hrun =>
    have R₁ : Represents st place live rs (s.triggered n).collector := R.congr rfl rfl rfl rfl
    obtain ⟨p, hp, hs, _⟩ := Mutator.runCycle_ok hrun
    obtain ⟨hspace, place', rs', R'⟩ := R₁.swept hp hs
    refine ⟨place', _, rs', R', fun h => absurd (hs.cycles.symm.trans h) (Nat.succ_ne_self _), fun hf => ?_⟩
    have hfull := R'.full hf
    rw [hspace] at hfull
    exact hfull

/-! ## One more object -/

section
variable (R : Represents st place live rs c) {y : Content Nat} {r : Ref}
include R

/-- An object that was there keeps its address and its content. -/
theorem place_add {i : Nat} (hi : i ∈ live) : Function.update place st.size r i = place i :=
  Function.update_of_ne (Nat.ne_of_lt (R.bounded i hi)) ..

theorem content_add {i : Nat} (hi : i ∈ live) : (st.add y).content i = st.content i :=
  Function.update_of_ne (Nat.ne_of_lt (R.bounded i hi)) ..

variable (x : Extended c c' (y.map place).words)
include x

theorem top_lt : c.cursor.top < c.arena.spaceWords := by
  have hroom : c.cursor.top + (y.map place).words.length ≤ c.arena.spaceWords := R.wellFormed ▸ x.fits
  rw [Content.length_words_map] at hroom
  unfold headerWords at hroom
  omega

theorem tiled_add (hcount : y.header.slotCount = y.slots.length) :
    c'.arena.Tiled (rs ++ [(c.cursor.top, y.header)]) c'.cursor.top := by
  have hs : (y.map place).header.slotCount = (y.map place).slots.length := by simpa using hcount
  have t := x.tiled R.tiled R.top_le hs
  rw [Content.header_map] at t
  exact t

variable (hr : r.addr = c.arena.address ⟨c.arena.active, c.cursor.top⟩)
include hr

/-- No record starts where the new one does. -/
theorem address_ne {e : Nat × Header} (he : e ∈ rs) : c.arena.address ⟨c.arena.active, e.1⟩ ≠ r.addr := by
  intro h
  have htop := R.top_lt x
  have hend := (R.tiled.consecutive.bounds he).2
  have hpos := e.2.size_pos
  have heq := @Arena.address_injective c.arena ⟨c.arena.active, e.1⟩ ⟨c.arena.active, c.cursor.top⟩
    (by show e.1 < _; omega) htop (h.trans hr)
  simp only [Location.mk.injEq, true_and] at heq
  omega

theorem placed_add : Set.BijOn (fun i => (Function.update place st.size r i).addr) (insert st.size live)
    {w | c'.arena.Starts (rs ++ [(c.cursor.top, y.header)]) w} := by
  have hb : Set.BijOn (fun i => (Function.update place st.size r i).addr) live {w | c.arena.Starts rs w} :=
    R.placed.congr fun i hi => congrArg Ref.addr (R.place_add hi).symm
  have hself : (Function.update place st.size r st.size).addr = r.addr := by rw [Function.update_self]
  rw [x.starts_append, ← hr, ← hself]
  apply hb.insert
  intro hex
  obtain ⟨e, he, hw⟩ := hex
  exact R.address_ne x hr he (hw.symm.trans hself)

theorem holds_add (hy : ∀ j, some j ∈ y.slots → j ∈ live) (hcount : y.header.slotCount = y.slots.length) :
    ∀ i ∈ insert st.size live, ∀ e ∈ rs ++ [(c.cursor.top, y.header)],
      (Function.update place st.size r i).addr = c'.arena.address ⟨c'.arena.active, e.1⟩ →
      c'.arena.Holds e.1 (((st.add y).content i).map (Function.update place st.size r)) := by
  have hself : (st.add y).content st.size = y := Function.update_self ..
  have hnew : c'.arena.Holds c.cursor.top (y.map place) := x.holds_new (by simpa using hcount)
  intro i hi e he hw
  rcases hi with rfl | hi
  · rw [Function.update_self, x.address] at hw
    rcases List.mem_append.mp he with he | he
    · exact absurd hw.symm (R.address_ne x hr he)
    · rw [List.mem_singleton.mp he, hself, Content.map_congr fun j hj => R.place_add (hy j hj)]
      exact hnew
  · rw [R.place_add hi, x.address] at hw
    rcases List.mem_append.mp he with he | he
    · rw [R.content_add hi, Content.map_congr fun j hj => R.place_add (R.closed i hi j hj)]
      refine x.holds (R.holds i hi e he hw) ?_ R.top_le
      rw [Content.header_map, ← (R.header_eq hi he hw).1]
      exact (R.tiled.consecutive.bounds he).2
    · obtain ⟨e', he', hw', _⟩ := R.record hi
      rw [List.mem_singleton.mp he, ← hr, hw'] at hw
      exact absurd hw (R.address_ne x hr he')

/-- Storing the words of an object after the records adds the object to the store. -/
theorem extend (hy : ∀ j, some j ∈ y.slots → j ∈ live) :
    Represents (st.add y) (Function.update place st.size r) (insert st.size live)
      (rs ++ [(c.cursor.top, y.header)]) c' := by
  have hroom : c.cursor.top + (y.map place).words.length ≤ c.arena.spaceWords := R.wellFormed ▸ x.fits
  have hspace : c.arena.spaceWords < UInt64.size := c.arena.layout.spaceWords_lt
  rw [Content.length_words_map] at hroom
  have hcount : y.header.slotCount = y.slots.length := Content.slotCount_header (by omega)
  refine ⟨?wellFormed, x.phase.trans R.idle, R.tiled_add x hcount, R.placed_add x hr, R.holds_add x hr hy hcount,
    ?bounded, ?closed, fun i hi => Or.inr (R.rooted i hi), ?roots, ?capacity⟩
  case wellFormed =>
    unfold Collector.WellFormed
    rw [x.capacity, x.spaceWords]
    exact R.wellFormed
  case bounded =>
    intro i hi
    rcases hi with rfl | hi
    · exact Nat.lt_succ_self _
    · exact Nat.lt_succ_of_lt (R.bounded i hi)
  case closed =>
    intro i hi j hj
    rcases hi with rfl | hi
    · have hself : (st.add y).content st.size = y := Function.update_self ..
      rw [hself] at hj
      exact Or.inr (hy j hj)
    · rw [R.content_add hi] at hj
      exact Or.inr (R.closed i hi j hj)
  case roots =>
    rw [x.roots, R.roots]
    exact List.map_congr_left fun i hi => (R.place_add (R.rooted i hi)).symm
  case capacity => rw [x.roots]; exact R.capacity

end

/-- A new object is one more in the store, or there is no room for it. -/
theorem obtains {place' : Nat → Ref} {live' : Set Nat} {rs' : List (Nat × Header)} {m : Session}
    {out : EStateM.Result Error Session Ref} (R : Represents st place live rs c)
    (R' : Represents st place' live' rs' m.collector) (hm : Moves place live c place' live' m.collector) {y : Content Nat}
    (hy : ∀ j, some j ∈ y.slots → j ∈ live') (ho : Obtains m (y.map place').words out) :
    (∃ place'' live'' rs'' r s', out = .ok r s' ∧ Represents (st.add y) place'' live'' rs'' s'.collector ∧
      Moves place live c place'' live'' s'.collector ∧ st.size ∈ live'' ∧ place'' st.size = r) ∨
    ∃ s', out = .error (.outOfMemory y.size m.collector.cursor.remaining) s' ∧ s'.collector = m.collector ∧
      m.collector.cursor.fits y.size = false := by
  have hlen : (y.map place').words.length = y.size := Content.length_words_map place' y
  cases ho with
  | @placed r s' P =>
    refine Or.inl ⟨_, _, _, r, s', rfl, R'.extend P.extended P.address hy, ?_, Or.inl rfl, Function.update_self ..⟩
    intro hc
    obtain ⟨hs, he⟩ := hm (P.extended.cycles ▸ hc)
    refine ⟨fun i hi => Or.inr (hs hi), fun i hi => ?_⟩
    rw [Function.update_of_ne (Nat.ne_of_lt (R.bounded i hi))]
    exact he hi
  | @denied s' hf hc _ =>
    rw [hlen] at hf ⊢
    exact Or.inr ⟨s', rfl, hc, hf⟩

end Represents

end Semispace

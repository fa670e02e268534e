import Semispace.Proofs.Store.Represents

/-!
# Passes over a represented store

What the stack reaches in the store is what the roots reach in the heap. It fits in a half, so a
pass over all roots completes, and the collector then represents the same store at new addresses
(`Represents.swept`).
-/

namespace Semispace

/-- Some of the records take no more than all of them. -/
theorem Arena.Tiled.sum_le {a : Arena} {rs : List (Nat × Header)} {top : Nat} {ws : List Word} (t : a.Tiled rs top)
    (ht : top ≤ a.spaceWords) (hn : ws.Nodup) (hs : ∀ w ∈ ws, a.Starts rs w) : (ws.map a.sizeAt).sum ≤ top := by
  have hsub : ws ⊆ rs.map fun e => a.address ⟨a.active, e.1⟩ := by
    intro w hw
    obtain ⟨e, he, rfl⟩ := hs w hw
    exact List.mem_map_of_mem he
  apply Nat.le_trans (sum_map_le_of_subset a.sizeAt hn hsub)
  have hsizes : (rs.map fun e => a.address ⟨a.active, e.1⟩).map a.sizeAt = rs.map fun e => e.2.size := by
    rw [List.map_map]
    exact List.map_congr_left fun e he => (t.objectAt ht he).sizeAt
  have hend := t.consecutive.end_eq
  rw [hsizes]
  omega

/-- Records fit in the half they are in. -/
theorem Arena.Tiled.fits {a : Arena} {rs : List (Nat × Header)} {top : Nat} {roots : List Ref} (t : a.Tiled rs top)
    (ht : top ≤ a.spaceWords) (h : ∀ w, a.Reach roots w → a.Starts rs w) : Fits a top roots where
  objects w hw := by
    obtain ⟨e, he, rfl⟩ := h w hw
    exact ⟨e.1, e.2, t.objectAt ht he⟩
  room _ hn hs := (t.sum_le ht hn fun w hw => h w (hs w hw)).trans ht

namespace Represents

variable {st : Store} {place : Nat → Ref} {live : Set Nat} {rs : List (Nat × Header)} {c : Collector}

section
variable (R : Represents st place live rs c)
include R

theorem live_of_reach {i : Nat} (h : st.Reach i) : i ∈ live := by
  induction h with
  | root hi => exact R.rooted _ hi
  | slot _ hj ih => exact R.closed _ ih _ hj

/-- The slots of a live object, in the heap and in the store. -/
theorem slot_iff {i : Nat} (hi : i ∈ live) {o : Nat} {h : Header}
    (hl : c.arena.locate (place i).addr = some ⟨c.arena.active, o⟩) (hh : c.arena.headerAt ⟨c.arena.active, o⟩ = some h) :
    h = (st.content i).header ∧ h.slotCount = (st.content i).slots.length ∧ ∀ k (hk : k < (st.content i).slots.length),
      c.arena.slotAt ⟨c.arena.active, o⟩ k = Ref.slotWord ((st.content i).slots[k].map place) := by
  obtain ⟨e, he, _, hx, heq, ho⟩ := R.record hi
  have h1 := hl.symm.trans ho.located
  simp only [Option.some.injEq, Location.mk.injEq, true_and] at h1
  subst h1
  have h2 : h = e.2 := Option.some.inj (hh.symm.trans ho.header)
  subst h2
  exact ⟨heq, heq ▸ hx.slotCount_eq, fun k hk => hx.slotAt_eq hk⟩

theorem reach_iff {w : Word} : c.arena.Reach c.roots.toList w ↔ ∃ i, st.Reach i ∧ (place i).addr = w := by
  constructor
  · intro h
    induction h with
    | root hr =>
      rw [R.roots] at hr
      obtain ⟨i, hi, rfl⟩ := List.mem_map.mp hr
      exact ⟨i, .root hi, rfl⟩
    | @slot w o h k _ hl hh hk hz ih =>
      obtain ⟨i, hi, rfl⟩ := ih
      obtain ⟨_, hc, hs⟩ := R.slot_iff (R.live_of_reach hi) hl hh
      have hk' : k < (st.content i).slots.length := hc ▸ hk
      rw [hs k hk'] at hz ⊢
      cases hj : (st.content i).slots[k] with
      | none => rw [hj] at hz; exact absurd rfl hz
      | some j => exact ⟨j, hi.slot (hj ▸ List.getElem_mem hk'), rfl⟩
  · intro hex
    obtain ⟨i, hi, rfl⟩ := hex
    induction hi with
    | root hi => exact .root (R.roots ▸ List.mem_map_of_mem hi)
    | @slot i j hi hj ih =>
      obtain ⟨e, he, _, hx, heq, ho⟩ := R.record (R.live_of_reach hi)
      obtain ⟨k, hk, hkj⟩ := List.getElem_of_mem hj
      have hs := hx.slotAt_eq hk
      rw [hkj] at hs
      have hs : _ = (place j).addr := hs
      rw [← hs]
      refine .slot ih ho.located ho.header ?_ (hs ▸ (place j).ne_zero)
      rw [heq, hx.slotCount_eq]
      exact hk

/-- The live objects take the words in use. -/
theorem exists_ids : ∃ ids : List Nat, ids.Nodup ∧ (∀ i, i ∈ ids ↔ i ∈ live) ∧
    (ids.map fun i => (st.content i).size).sum = c.cursor.top := by
  have hname : ∀ e ∈ rs, ∃ i ∈ live, (place i).addr = c.arena.address ⟨c.arena.active, e.1⟩ :=
    fun e he => R.placed.surjOn ⟨e, he, rfl⟩
  choose! name hlive haddr using hname
  refine ⟨rs.map name, ?_, ?_, ?_⟩
  · apply List.Nodup.map_on
    · intro e he e' he' h
      apply R.tiled.address_inj R.top_le he he'
      rw [← haddr e he, ← haddr e' he', h]
    · exact List.Nodup.of_map _ R.tiled.consecutive.nodup_starts
  · intro i
    rw [List.mem_map]
    constructor
    · intro h
      obtain ⟨e, he, rfl⟩ := h
      exact hlive e he
    · intro hi
      obtain ⟨e, he, hw, _⟩ := R.record hi
      exact ⟨e, he, R.placed.injOn (hlive e he) hi ((haddr e he).trans hw.symm)⟩
  · rw [R.tiled.consecutive.end_eq, List.map_map, Nat.zero_add]
    refine congrArg List.sum (List.map_congr_left fun e he => ?_)
    exact (R.header_eq (hlive e he) he (haddr e he)).2.symm

theorem fits : Fits c.arena c.cursor.top c.roots.toList := by
  refine R.tiled.fits R.top_le fun w hw => ?_
  obtain ⟨i, hi, rfl⟩ := R.reach_iff.mp hw
  exact R.placed.mapsTo (R.live_of_reach hi)

end

/-- After a pass only what is reachable takes room. -/
theorem full (R : Represents st place {i | st.Reach i} rs c) {words : Nat} (hf : c.cursor.fits words = false) :
    st.Full c.arena.spaceWords words c.cursor.remaining := by
  obtain ⟨ids, hn, hids, hsum⟩ := R.exists_ids
  have htop := c.cursor.top_le
  have hlt : ¬ c.cursor.top + words ≤ c.cursor.capacity := of_decide_eq_false hf
  refine ⟨ids, hn, hids, ?_, ?_⟩
  · rw [hsum, ← R.wellFormed]
    exact Nat.add_sub_cancel' htop
  · show c.cursor.capacity - c.cursor.top < words
    omega

/-- The address that an object has after a pass that moves addresses by `f`. -/
def moved (f : Word → Word) (place : Nat → Ref) (i : Nat) : Ref := (Ref.ofWord? (f (place i).addr)).getD (place i)

theorem moved_addr {f : Word → Word} {i : Nat} (h : f (place i).addr ≠ 0) : (moved f place i).addr = f (place i).addr := by
  unfold moved
  rw [Ref.ofWord?_of_ne h]
  rfl

theorem slotWord_moved {f : Word → Word} {o : Option Nat} (hz : f 0 = 0)
    (h : ∀ j, o = some j → f (place j).addr ≠ 0) : f (Ref.slotWord (o.map place)) = Ref.slotWord (o.map (moved f place)) := by
  cases o with
  | none => exact hz
  | some j => exact (moved_addr (h j rfl)).symm

/-- A completed pass over all roots keeps the store; the reachable objects alone remain live. -/
theorem copied (R : Represents st place live rs c) {c' : Collector} {f : Word → Word} {rs' : List (Nat × Header)}
    (hw : c'.WellFormed) (hp : c'.phase = .idle)
    (C : Copied c.arena c'.arena c.cursor.top c'.cursor.top c.roots.toList f rs')
    (hroots : c'.roots.toList.map Ref.addr = c.roots.toList.map fun r => f r.addr)
    (hcap : c'.roots.capacity = c.roots.capacity) :
    Represents st (moved f place) {i | st.Reach i} rs' c' := by
  have hreach : ∀ {i}, st.Reach i → c.arena.Reach c.roots.toList (place i).addr := fun hi => R.reach_iff.mpr ⟨_, hi, rfl⟩
  have hmoved : ∀ {i}, st.Reach i → (moved f place i).addr = f (place i).addr := fun hi =>
    moved_addr (C.ne_zero (hreach hi))
  have hplace : Set.BijOn (fun i => (place i).addr) {i | st.Reach i} {w | c.arena.Reach c.roots.toList w} := by
    refine ⟨fun i hi => hreach hi, R.placed.injOn.mono fun i hi => R.live_of_reach hi, ?_⟩
    intro w hw
    exact R.reach_iff.mp hw
  refine ⟨hw, hp, C.tiled, ?placed, ?holds, ?bounded, ?closed, fun i hi => .root hi, ?roots, hcap.trans R.capacity⟩
  case placed => exact (C.bijective.comp hplace).congr fun i hi => (hmoved hi).symm
  case holds =>
    intro i hi e he hwe
    obtain ⟨o, o', h, x, hm, hf, _, hslot⟩ := C.object _ (hreach hi)
    obtain ⟨heq, hc, hs⟩ := R.slot_iff (R.live_of_reach hi) x.located x.header
    have hee : e = (o', h) := C.tiled.address_inj C.top_le he hm (hwe.symm.trans ((hmoved hi).trans hf))
    subst hee
    refine ⟨?_, ?_, ?_⟩
    · rw [Content.header_map, ← heq]
      exact C.tiled.header _ hm
    · rw [Content.header_map, ← heq, hc, Content.slots_map, List.length_map]
    · intro k hk
      simp only [Content.slots_map, List.length_map] at hk
      simp only [Content.slots_map, List.getElem_map]
      rw [hslot k (hc ▸ hk), hs k hk]
      refine slotWord_moved C.zero fun j hj => ?_
      exact C.ne_zero (hreach (hi.slot (hj ▸ List.getElem_mem hk)))
  case bounded => exact fun i hi => R.bounded i (R.live_of_reach hi)
  case closed => exact fun i hi j hj => .slot hi hj
  case roots =>
    apply List.map_injective_iff.mpr fun _ _ => Ref.eq_of_addr
    rw [hroots, R.roots, List.map_map, List.map_map]
    exact List.map_congr_left fun i hi => (hmoved (.root hi)).symm

/-- A pass over all roots of a collector that represents a store completes. -/
theorem completes (R : Represents st place live rs c) : ∃ p, (c.relocateLive c.roots.top).2 = .ok () p :=
  Collector.relocateLive_ok_iff.mpr (c.roots.bottom_top.symm ▸ R.fits)

/-- The collector that it leaves represents the same store. -/
theorem swept {s s' : Session} {reason : Reason} {p : Pass} (R : Represents st place live rs s.collector)
    (hp : (s.collector.relocateLive s.collector.roots.top).2 = .ok () p)
    (hs : Swept s s.collector.roots.top reason p s') :
    s'.collector.arena.spaceWords = s.collector.arena.spaceWords ∧
      ∃ place' rs', Represents st place' {i | st.Reach i} rs' s'.collector := by
  obtain ⟨hw, _, f, rs', C, hroots⟩ := hs.copied_all R.wellFormed hp
  exact ⟨congrArg Layout.spaceWords C.layout, _, _, R.copied hw hs.phase C hroots hs.rootCapacity⟩

end Represents

end Semispace

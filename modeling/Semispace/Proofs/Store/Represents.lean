import Semispace.Collector.Access
import Semispace.Proofs.Collector.Shape
import Semispace.Proofs.Store.Basic

/-!
# Collectors that hold a store

`Represents`: the records of a collector are the live objects of a store, each at the address its
identity has at present, with its references replaced by their addresses. All readings then agree,
and the addresses are those of whole objects, so a pass over the stack cannot fail.
-/

namespace Semispace

/-- The record at an offset of the active half holds a content. -/
structure Arena.Holds (a : Arena) (o : Nat) (x : Content Ref) : Prop where
  header : a.headerAt ⟨a.active, o⟩ = some x.header
  slotCount : x.header.slotCount = x.slots.length
  slot : ∀ k (h : k < x.slots.length), a.slotAt ⟨a.active, o⟩ k = Ref.slotWord x.slots[k]

/-- The header of a record is that of the content. -/
theorem Arena.Holds.header_eq {a : Arena} {rs : List (Nat × Header)} {top : Nat} {e : Nat × Header} {x : Content Ref}
    (h : a.Holds e.1 x) (t : a.Tiled rs top) (he : e ∈ rs) :
    e.2 = x.header ∧ e.2.size = headerWords + x.slots.length := by
  have heq : e.2 = x.header := Option.some.inj ((t.header e he).symm.trans h.header)
  refine ⟨heq, ?_⟩
  rw [heq, Header.size_eq, h.slotCount]

theorem Arena.Holds.slotCount_eq {a : Arena} {o : Nat} {x : Content Nat} {place : Nat → Ref}
    (h : a.Holds o (x.map place)) : x.header.slotCount = x.slots.length := by
  have := h.slotCount
  rw [Content.header_map, Content.slots_map, List.length_map] at this
  exact this

theorem Arena.Holds.slotAt_eq {a : Arena} {o : Nat} {x : Content Nat} {place : Nat → Ref} (h : a.Holds o (x.map place))
    {k : Nat} (hk : k < x.slots.length) : a.slotAt ⟨a.active, o⟩ k = Ref.slotWord (x.slots[k].map place) := by
  have := h.slot k (by rw [Content.slots_map, List.length_map]; exact hk)
  simp only [Content.slots_map, List.getElem_map] at this
  exact this

/-- The records `rs` of a collector are the objects `live` of a store, and `place` tells their
addresses; there are no other records. -/
structure Represents (st : Store) (place : Nat → Ref) (live : Set Nat) (rs : List (Nat × Header)) (c : Collector) :
    Prop where
  wellFormed : c.WellFormed
  idle : c.phase = .idle
  tiled : c.arena.Tiled rs c.cursor.top
  placed : Set.BijOn (fun i => (place i).addr) live {w | c.arena.Starts rs w}
  holds : ∀ i ∈ live, ∀ e ∈ rs, (place i).addr = c.arena.address ⟨c.arena.active, e.1⟩ →
    c.arena.Holds e.1 ((st.content i).map place)
  bounded : ∀ i ∈ live, i < st.size
  closed : ∀ i ∈ live, ∀ j, some j ∈ (st.content i).slots → j ∈ live
  rooted : ∀ i ∈ st.stack, i ∈ live
  roots : c.roots.toList = st.stack.map place
  capacity : c.roots.capacity = st.capacity

namespace Represents

variable {st : Store} {place : Nat → Ref} {live : Set Nat} {rs : List (Nat × Header)} {c : Collector}

section
variable (R : Represents st place live rs c)
include R

theorem top_le : c.cursor.top ≤ c.arena.spaceWords := R.wellFormed ▸ c.cursor.top_le

theorem usable : c.phase ≠ .poisoned := by
  rw [R.idle]
  exact nofun

theorem header_eq {i : Nat} (hi : i ∈ live) {e : Nat × Header} (he : e ∈ rs)
    (hw : (place i).addr = c.arena.address ⟨c.arena.active, e.1⟩) :
    e.2 = (st.content i).header ∧ e.2.size = headerWords + (st.content i).slots.length := by
  have h := (R.holds i hi e he hw).header_eq R.tiled he
  rw [Content.header_map, Content.slots_map, List.length_map] at h
  exact h

/-- Where a live object is. -/
theorem record {i : Nat} (hi : i ∈ live) : ∃ e ∈ rs, (place i).addr = c.arena.address ⟨c.arena.active, e.1⟩ ∧
    c.arena.Holds e.1 ((st.content i).map place) ∧ e.2 = (st.content i).header ∧
    c.arena.ObjectAt c.cursor.top (place i).addr e.1 e.2 := by
  obtain ⟨e, he, hw⟩ := R.placed.mapsTo hi
  have hw : (place i).addr = c.arena.address ⟨c.arena.active, e.1⟩ := hw
  exact ⟨e, he, hw, R.holds i hi e he hw, (R.header_eq hi he hw).1, hw ▸ R.tiled.objectAt R.top_le he⟩

theorem place_injective : Set.InjOn place live := fun _ hi _ hj h => R.placed.injOn hi hj (congrArg Ref.addr h)

/-! ## Readings -/

theorem wordLocation {i : Nat} {e : Nat × Header} (he : e ∈ rs)
    (hw : (place i).addr = c.arena.address ⟨c.arena.active, e.1⟩) (k : Nat) : c.wordLocation (place i) k =
    if c.cursor.top ≤ e.1 + k then .error (.invalidReference (place i).addr)
    else .ok ⟨c.arena.active, e.1 + k⟩ := by
  have ho := R.tiled.objectAt R.top_le he
  unfold Collector.wordLocation
  rw [hw, ho.located]
  dsimp only
  rw [if_neg (fun h => h rfl)]
  rfl

theorem checkObject {i : Nat} (hi : i ∈ live) : ∃ e ∈ rs,
    (place i).addr = c.arena.address ⟨c.arena.active, e.1⟩ ∧
    c.checkObject (place i) = .ok (⟨c.arena.active, e.1⟩, (st.content i).header) ∧
    c.arena.Holds e.1 ((st.content i).map place) ∧ e.1 + (st.content i).header.size ≤ c.cursor.top := by
  obtain ⟨e, he, hw, hh, heq, ho⟩ := R.record hi
  have hend := (R.tiled.consecutive.bounds he).2
  have hloc : c.wordLocation (place i) 0 = .ok ⟨c.arena.active, e.1⟩ := by
    rw [R.wordLocation he hw, Nat.add_zero, if_neg (Nat.not_le.mpr ho.below)]
  have hread : Header.read c.arena ⟨c.arena.active, e.1⟩ = .ok e.2 :=
    Header.read_eq_ok_iff.mpr ⟨ho.header, c.arena.isOpen_active, ho.inside⟩
  refine ⟨e, he, hw, ?_, hh, heq ▸ hend⟩
  unfold Collector.checkObject
  rw [hloc]
  simp only [bind, Except.bind]
  rw [hread]
  dsimp only
  rw [if_neg (Nat.not_lt.mpr hend), ← heq]
  rfl

theorem header {i : Nat} (hi : i ∈ live) : c.header (place i) = .ok (st.content i).header := by
  obtain ⟨e, _, _, hc, _⟩ := R.checkObject hi
  unfold Collector.header
  rw [hc]
  rfl

theorem tagOf {i : Nat} (hi : i ∈ live) : c.tagOf (place i) = .ok (st.content i).tag := by
  unfold Collector.tagOf
  rw [R.header hi]
  rfl

theorem headerTagged {i : Nat} (hi : i ∈ live) (t : Tag) : c.headerTagged (place i) t =
    if (st.content i).tag = t then .ok (st.content i).header
    else .error (.invalidArgument (.wrongTag t (place i) (st.content i).tag)) := by
  unfold Collector.headerTagged
  rw [R.header hi]
  rfl

theorem intValue {i : Nat} (hi : i ∈ live) :
    c.intValue (place i) = Refusal.image place ((st.content i).intValue i) := by
  unfold Collector.intValue
  rw [R.headerTagged hi]
  cases st.content i with
  | int v => exact congrArg Except.ok (Int64.toInt64_toUInt64 v)
  | bool v => rfl
  | vector slots => rfl

theorem boolValue {i : Nat} (hi : i ∈ live) :
    c.boolValue (place i) = Refusal.image place ((st.content i).boolValue i) := by
  unfold Collector.boolValue
  rw [R.headerTagged hi]
  cases st.content i with
  | int v => rfl
  | bool v => cases v <;> rfl
  | vector slots => rfl

theorem vectorLength {i : Nat} (hi : i ∈ live) :
    c.vectorLength (place i) = Refusal.image place ((st.content i).vectorLength i) := by
  obtain ⟨e, _, _, hh, _⟩ := R.record hi
  have hs := hh.slotCount
  unfold Collector.vectorLength
  rw [R.headerTagged hi]
  cases hx : st.content i with
  | int v => rfl
  | bool v => rfl
  | vector slots =>
    rw [hx] at hs
    simp only [Content.header_map, Content.slots_map, List.length_map] at hs
    exact congrArg Except.ok hs

/-- The slot of a vector is found, and any other is refused. -/
theorem slotLocation {i : Nat} (hi : i ∈ live) (k : Nat) :
    (∃ slots e, st.content i = .vector slots ∧ k < slots.length ∧ e ∈ rs ∧
      (place i).addr = c.arena.address ⟨c.arena.active, e.1⟩ ∧
      c.arena.Holds e.1 ((st.content i).map place) ∧ e.1 + (headerWords + slots.length) ≤ c.cursor.top ∧
      c.slotLocation (place i) k = .ok ⟨c.arena.active, e.1 + (headerWords + k)⟩) ∨
    ∃ f, (st.content i).vectorGet i k = .error f ∧ (∀ o, (st.content i).vectorSet i k o = .error f) ∧
      c.slotLocation (place i) k = .error (f.map place).error := by
  obtain ⟨e, he, hw, hc, hh, hend⟩ := R.checkObject hi
  unfold Collector.slotLocation
  rw [hc]
  simp only [bind, Except.bind]
  cases hx : st.content i with
  | int v => exact Or.inr ⟨.wrongTag .vector i .int, rfl, fun _ => rfl, rfl⟩
  | bool v => exact Or.inr ⟨.wrongTag .vector i .bool, rfl, fun _ => rfl, rfl⟩
  | vector slots =>
    rw [hx] at hh hend
    have hs : (Content.vector slots).header.slotCount = slots.length := hh.slotCount_eq
    rw [Header.size_eq, hs] at hend
    rw [if_neg (fun h => h rfl), hs]
    by_cases hk : k < slots.length
    · refine Or.inl ⟨slots, e, rfl, hk, he, hw, hh, hend, ?_⟩
      rw [if_neg (Nat.not_le.mpr hk)]
      rfl
    · refine Or.inr ⟨.slotOutOfBounds k slots.length, ?_, fun _ => ?_, ?_⟩
      · unfold Content.vectorGet
        dsimp only
        rw [List.getElem?_eq_none (Nat.not_lt.mp hk)]
        rfl
      · exact if_neg hk
      · rw [if_pos (Nat.not_lt.mp hk)]
        rfl

theorem vectorGet {i : Nat} (hi : i ∈ live) (k : Nat) : c.vectorGet (place i) k =
    Refusal.image place (((st.content i).vectorGet i k).map (Option.map place)) := by
  unfold Collector.vectorGet
  rcases R.slotLocation hi k with ⟨slots, e, hx, hk, he, _, hh, hend, hl⟩ | ⟨f, hf, _, hl⟩
  · have htop := R.top_le
    have hlt : e.1 + (headerWords + k) < c.arena.spaceWords := by omega
    have hread := @Arena.read_ok c.arena ⟨c.arena.active, e.1 + (headerWords + k)⟩ hlt c.arena.isOpen_active
    rw [hx] at hh
    have hword : _ = Ref.slotWord (slots[k].map place) := hh.slotAt_eq hk
    have hget : (Content.vector slots).vectorGet i k = .ok slots[k] := by
      unfold Content.vectorGet
      dsimp only
      rw [List.getElem?_eq_getElem hk]
      rfl
    rw [hl, hx, hget]
    simp only [bind, Except.bind]
    rw [hread]
    show Except.ok (Ref.ofWord? (c.arena.slotAt ⟨c.arena.active, e.1⟩ k)) = _
    rw [hword, Ref.ofWord?_slotWord]
    rfl
  · rw [hl, hf]
    rfl

theorem vectorGet_eq_some_iff {i : Nat} (hi : i ∈ live) {k : Nat} {r : Ref} :
    c.vectorGet (place i) k = .ok (some r) ↔ ∃ j, (st.content i).slots[k]? = some (some j) ∧ place j = r := by
  rw [R.vectorGet hi]
  cases hx : (st.content i).vectorGet i k with
  | error f =>
    refine ⟨nofun, ?_⟩
    intro hex
    obtain ⟨j, hj, _⟩ := hex
    rw [Content.vectorGet_eq_ok_iff.mpr hj] at hx
    cases hx
  | ok o =>
    rw [Content.vectorGet_eq_ok_iff.mp hx]
    constructor
    · intro h
      obtain ⟨j, rfl, hj⟩ := Option.map_eq_some_iff.mp (Except.ok.inj h)
      exact ⟨j, rfl, hj⟩
    · intro hex
      obtain ⟨j, hj, rfl⟩ := hex
      cases hj
      rfl

theorem value {i : Nat} (hi : i ∈ live) : c.value (place i) = .ok ((st.content i).map place).value := by
  obtain ⟨e, he, _, hc, hh, hend⟩ := R.checkObject hi
  unfold Collector.value
  rw [hc]
  simp only [bind, Except.bind]
  cases hx : st.content i with
  | int v => exact congrArg (fun v => Except.ok (Value.int v)) (Int64.toInt64_toUInt64 v)
  | bool v => cases v <;> rfl
  | vector slots =>
    have htop := R.top_le
    rw [hx] at hh hend
    have hs : (Content.vector slots).header.slotCount = slots.length := hh.slotCount_eq
    rw [Header.size_eq, hs] at hend
    have hwords := @Collector.readWords_ok c ⟨c.arena.active, e.1 + headerWords⟩ slots.length
      (by show e.1 + headerWords + slots.length ≤ _; omega) c.arena.isOpen_active
    show (c.readWords ⟨c.arena.active, e.1 + headerWords⟩ (Content.vector slots).header.slotCount >>= fun words =>
      pure (Value.vector (words.map Ref.ofWord?))) = _
    rw [hs, hwords]
    show Except.ok (Value.vector _) = Except.ok (Value.vector _)
    rw [List.map_map]
    refine congrArg (fun l => Except.ok (Value.vector l)) (List.ext_getElem (by simp) fun k hk hk' => ?_)
    have hk : k < slots.length := by simpa using hk
    have hword : _ = Ref.slotWord (slots[k].map place) := hh.slotAt_eq hk
    have heq : e.1 + headerWords + k = e.1 + (headerWords + k) := Nat.add_assoc ..
    simp only [Arena.slotAt, Location.add, ← heq] at hword
    simp only [List.getElem_map, List.getElem_range, Function.comp_apply, Location.add]
    rw [hword, Ref.ofWord?_slotWord]

/-- A raw word is read when it lies below the cursor. -/
theorem readWord {i : Nat} {e : Nat × Header} (he : e ∈ rs)
    (hw : (place i).addr = c.arena.address ⟨c.arena.active, e.1⟩) (k : Nat) : c.readWord (place i) k =
    if c.cursor.top ≤ e.1 + k then .error (.invalidReference (place i).addr)
    else .ok (c.arena.word ⟨c.arena.active, e.1 + k⟩) := by
  unfold Collector.readWord
  rw [R.wordLocation he hw]
  by_cases hk : c.cursor.top ≤ e.1 + k
  · rw [if_pos hk, if_pos hk]
    rfl
  · rw [if_neg hk, if_neg hk]
    have htop := R.top_le
    have hlt : e.1 + k < c.arena.spaceWords := by omega
    exact @Arena.read_ok c.arena ⟨c.arena.active, e.1 + k⟩ hlt c.arena.isOpen_active

end

end Represents

end Semispace

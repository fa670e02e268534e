import Semispace.Collector.Mutation
import Semispace.Proofs.Store.Represents

/-!
# Overwriting slots

A word stored in a slot of a record changes no header and no other record, so overwriting a slot of
a live vector overwrites it in the store and nothing else (`Represents.vectorSet`).
-/

namespace Semispace

namespace Arena

variable {a b : Arena} {rs : List (Nat × Header)} {top j : Nat} {e e' : Nat × Header} {w : Word}

/-- A word stored in the active half leaves the others there. -/
theorem Stored.word_of_ne {o n : Nat} (h : a.Stored b ⟨a.active, o⟩ [w]) (hn : n < a.spaceWords) (hne : n ≠ o) :
    b.word ⟨b.active, n⟩ = a.word ⟨a.active, n⟩ := by
  rw [h.active]
  refine h.outside ⟨a.active, n⟩ hn fun _ => ?_
  show n < o ∨ o + 1 ≤ n
  omega

section
variable (t : a.Tiled rs top) (ht : top ≤ a.spaceWords) (he : e ∈ rs) (h0 : headerWords ≤ j) (hj : j < e.2.size)
  (h : a.Stored b ⟨a.active, e.1 + j⟩ [w])
include t ht he h0 hj h

theorem Tiled.headerAt_set (he' : e' ∈ rs) : b.headerAt ⟨b.active, e'.1⟩ = a.headerAt ⟨a.active, e'.1⟩ := by
  have hend := (t.consecutive.bounds he').2
  have hsize := e'.2.headerWords_le_size
  have hap := t.consecutive.apart he he'
  unfold headerWords at *
  have hne0 : e'.1 ≠ e.1 + j := by rcases hap with rfl | h | h <;> omega
  have hne1 : e'.1 + 1 ≠ e.1 + j := by rcases hap with rfl | h | h <;> omega
  exact congrArg₂ Header.decode (h.word_of_ne (by omega) hne0) (h.word_of_ne (n := e'.1 + 1) (by omega) hne1)

theorem Tiled.set : b.Tiled rs top :=
  ⟨t.consecutive, fun _ he' => (t.headerAt_set ht he h0 hj h he').trans (t.header _ he')⟩

theorem Holds.set_other {x : Content Ref} (hx : a.Holds e'.1 x) (he' : e' ∈ rs) (hne : e' ≠ e) : b.Holds e'.1 x := by
  have hsize := (hx.header_eq t he').2
  have hend := (t.consecutive.bounds he').2
  refine ⟨(t.headerAt_set ht he h0 hj h he').trans hx.header, hx.slotCount, fun k hk => ?_⟩
  rw [← hx.slot k hk]
  have hout : e'.1 + (headerWords + k) ≠ e.1 + j := by
    rcases t.consecutive.apart he he' with rfl | h | h
    · exact absurd rfl hne
    · omega
    · omega
  exact h.word_of_ne (n := e'.1 + (headerWords + k)) (by omega) hout

end

theorem Holds.set_self {slots : List (Option Ref)} {k : Nat} {o : Option Ref} (t : a.Tiled rs top)
    (ht : top ≤ a.spaceWords) (he : e ∈ rs) (hx : a.Holds e.1 (.vector slots)) (hk : k < slots.length)
    (h : a.Stored b ⟨a.active, e.1 + (headerWords + k)⟩ [Ref.slotWord o]) : b.Holds e.1 (.vector (slots.set k o)) := by
  have hcount : (Content.vector slots).header.slotCount = slots.length := hx.slotCount
  have hheader : (Content.vector (slots.set k o)).header = (Content.vector slots).header := by
    simp [Content.header, Content.tag, Content.second]
  have hsize : e.2.size = headerWords + slots.length := (hx.header_eq t he).2
  have hend := (t.consecutive.bounds he).2
  refine ⟨?_, ?_, ?_⟩
  · rw [hheader, ← hx.header]
    exact t.headerAt_set ht he (Nat.le_add_right ..) (by omega) h he
  · rw [hheader, hcount]
    exact List.length_set.symm
  · intro k' hk'
    have hk' : k' < slots.length := by simpa [Content.slots] using hk'
    by_cases hkk : k' = k
    · subst hkk
      simp only [Content.slots, List.getElem_set_self]
      have hnew : b.word ⟨a.active, e.1 + (headerWords + k')⟩ = Ref.slotWord o := h.inside 0 (Nat.zero_lt_one)
      rw [h.active]
      exact hnew
    · have hsame : a.slotAt ⟨a.active, e.1⟩ k' = Ref.slotWord slots[k'] := hx.slot k' hk'
      simp only [Content.slots, List.getElem_set_ne (Ne.symm hkk)]
      rw [← hsame]
      exact h.word_of_ne (n := e.1 + (headerWords + k')) (by omega) (by omega)

end Arena

namespace Represents

variable {st : Store} {place : Nat → Ref} {live : Set Nat} {rs : List (Nat × Header)} {s : Session}

/-- Overwriting a slot of a live vector overwrites it in the store. -/
theorem setSlot {c : Collector} (R : Represents st place live rs c) {i k : Nat} {slots : List (Option Nat)}
    {e : Nat × Header} {o : Option Nat} {b : Arena} (hi : i ∈ live) (hx : st.content i = .vector slots)
    (hk : k < slots.length) (he : e ∈ rs) (hw : (place i).addr = c.arena.address ⟨c.arena.active, e.1⟩)
    (ho : ∀ j, o = some j → j ∈ live)
    (hst : c.arena.Stored b ⟨c.arena.active, e.1 + (headerWords + k)⟩ [Ref.slotWord (o.map place)]) :
    Represents { st with content := Function.update st.content i (.vector (slots.set k o)) } place live rs
      { c with arena := b } := by
  have htop := R.top_le
  have hhold := R.holds i hi e he hw
  have hsize := (R.header_eq hi he hw).2
  rw [hx] at hhold hsize
  have hj : headerWords + k < e.2.size := hsize ▸ Nat.add_lt_add_left hk _
  have hmap : (Content.vector (slots.set k o)).map place =
      .vector ((slots.map (Option.map place)).set k (o.map place)) := by
    simp only [Content.map, List.map_set]
  refine ⟨R.wellFormed.trans hst.spaceWords.symm, R.idle, R.tiled.set htop he (Nat.le_add_right ..) hj hst, ?placed,
    ?holds, R.bounded, ?closed, R.rooted, R.roots, R.capacity⟩
  case placed =>
    show Set.BijOn _ _ {w | b.Starts rs w}
    rw [Arena.starts_congr hst.layout hst.active]
    exact R.placed
  case holds =>
    intro j hj' e' he' hw'
    have hw' : (place j).addr = c.arena.address ⟨c.arena.active, e'.1⟩ := by
      rw [← hst.address, ← hst.active]
      exact hw'
    show b.Holds e'.1 ((Function.update st.content i (.vector (slots.set k o)) j).map place)
    by_cases hji : j = i
    · subst hji
      obtain rfl := R.tiled.address_inj htop he he' (hw.symm.trans hw')
      rw [Function.update_self, hmap]
      exact hhold.set_self R.tiled htop he (by rw [List.length_map]; exact hk) hst
    · rw [Function.update_of_ne hji]
      apply (R.holds j hj' e' he' hw').set_other R.tiled htop he (Nat.le_add_right ..) hj hst he'
      rintro rfl
      exact hji (R.placed.injOn hj' hi (hw'.trans hw.symm))
  case closed =>
    intro j hj' j' hjj'
    dsimp only at hjj'
    by_cases hji : j = i
    · subst hji
      rw [Function.update_self] at hjj'
      rcases List.mem_or_eq_of_mem_set hjj' with h | h
      · exact R.closed j hj' j' (by rw [hx]; exact h)
      · exact ho j' h.symm
    · rw [Function.update_of_ne hji] at hjj'
      exact R.closed j hj' j' hjj'

theorem vectorSet (R : Represents st place live rs s.collector) {i : Nat} (hi : i ∈ live) (k : Nat) {o : Option Nat}
    (ho : ∀ j, o = some j → j ∈ live) :
    (∃ y s', (st.content i).vectorSet i k o = .ok y ∧
      (Mutator.vectorSet (place i) k (o.map place)).run s = .ok () s' ∧ s'.collector.cycles = s.collector.cycles ∧
      Represents { st with content := Function.update st.content i y } place live rs s'.collector) ∨
    ∃ f, (st.content i).vectorSet i k o = .error f ∧
      (Mutator.vectorSet (place i) k (o.map place)).run s = .error (f.map place).error s := by
  rcases R.slotLocation hi k with ⟨slots, e, hx, hk, he, hw, _, _, hl⟩ | ⟨f, _, hf, hl⟩
  · have hcheck : ∀ v, o.map place = some v → ∃ found, s.collector.checkObject v = .ok found := by
      intro v hv
      obtain ⟨j, hj, rfl⟩ := Option.map_eq_some_iff.mp hv
      obtain ⟨_, _, _, hc, _⟩ := R.checkObject (ho j hj)
      exact ⟨_, hc⟩
    obtain ⟨b, _, hst, hrun⟩ := Mutator.run_vectorSet_ok R.usable hl hcheck
    refine Or.inl ⟨.vector (slots.set k o), _, ?_, hrun, rfl, R.setSlot hi hx hk he hw ho hst⟩
    rw [hx]
    exact if_pos hk
  · exact Or.inr ⟨f, hf o, Mutator.run_vectorSet_unlocated R.usable hl _⟩

end Represents

end Semispace

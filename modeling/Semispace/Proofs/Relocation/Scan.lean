import Semispace.Proofs.Relocation.Invariant

/-!
# Roots and copies

Relocating the roots enters what they refer to; scanning the copies in order enters the rest, so
objects are moved in breadth-first order. A completed scan leaves every slot forwarded, so the objects
moved are the reachable ones.
-/

namespace Semispace.Pass

variable {a : Arena} {top σ : Nat} {roots : List Ref} {ms : List Moved} {p : Pass}

namespace Invariant

variable (I : Invariant a top roots ms σ p)
include I

/-- The slots of a moved object are reached with it. -/
theorem reach_slot {m : Moved} (hm : m ∈ ms) {j : Nat} (hj : j < m.header.size) (hj2 : headerWords ≤ j)
    (hz : a.word ⟨a.active, m.source + j⟩ ≠ 0) : a.Reach roots (a.word ⟨a.active, m.source + j⟩) := by
  have x := I.objects m hm
  have hs : m.source + (headerWords + (j - headerWords)) = m.source + j := by omega
  have he : a.slotAt ⟨a.active, m.source⟩ (j - headerWords) = a.word ⟨a.active, m.source + j⟩ := by
    show a.word ⟨a.active, m.source + (headerWords + (j - headerWords))⟩ = _
    rw [hs]
  have hc : j - headerWords < m.header.slotCount := by
    have := m.header.size_eq; omega
  have := Arena.Reach.slot (I.reached m hm) x.located x.header hc (he ▸ hz)
  rwa [he] at this

/-- Forwarding the slot at the scan pointer moves the pointer past it. -/
theorem advance {m : Moved} (hm : m ∈ ms) {j : Nat} (hσ : m.target + j = σ) (hj : j < m.header.size)
    (hj2 : headerWords ≤ j) {b : Arena} {new : Word} (hb : p.arena.Stored b ⟨a.inactive, σ⟩ [new])
    (hf : Forwards a ms (a.word ⟨a.active, m.source + j⟩) new) :
    Invariant a top roots ms (σ + 1) (p.setArena b) := by
  have hne : a.active ≠ a.inactive := Half.ne_other _
  have hend := I.end_le hm
  have htop := I.top_le
  -- only the word at the scan pointer changes
  have hold : ∀ i < a.spaceWords, i ≠ σ → b.word ⟨a.inactive, i⟩ = p.arena.word ⟨a.inactive, i⟩ := by
    intro i hi hne
    refine hb.outside ⟨a.inactive, i⟩ (by rw [I.spaceWords]; exact hi) fun _ => ?_
    show i < σ ∨ σ + 1 ≤ i
    omega
  refine ⟨hb.layout.trans I.layout, hb.active.trans I.active, hb.inactiveOpen.trans I.opened, I.sourceTop,
    I.capacity, ?_, I.table, I.noted, I.nodup, I.objects, I.reached, I.blocks, ?_, ?_, ?_⟩
  · intro i hi
    exact (hb.other_half hne (by rw [I.spaceWords]; exact hi)).trans (I.source i hi)
  · show σ + 1 ≤ p.cursor.top
    omega
  · intro m' hm' j' hj' hk
    have hend' := I.end_le hm'
    by_cases hc : m'.target + j' = σ
    · -- the pointer stands on a slot, and the words of a header are none
      rcases I.apart hm hm' with rfl | h | h
      · omega
      · omega
      · omega
    · exact (hold _ (by omega) hc).trans (I.kept m' hm' j' hj' (by omega))
  · intro m' hm' j' hj' hj2 hlt
    have hend' := I.end_le hm'
    show Forwards a ms _ (b.word ⟨a.inactive, m'.target + j'⟩)
    by_cases hc : m'.target + j' = σ
    · rcases I.apart hm hm' with rfl | h | h
      · have hjj : j' = j := by omega
        subst hjj
        have hw : b.word ⟨a.inactive, σ⟩ = new := hb.inside 0 (by simp)
        rw [hc, hw]
        exact hf
      · omega
      · omega
    · rw [hold _ (by omega) hc]
      exact I.forwarded m' hm' j' hj' hj2 (by omega)

/-- A header has no slots to forward, so the scan pointer may pass it. -/
theorem skip_header {m : Moved} (hm : m ∈ ms) (hσ : m.target = σ) :
    Invariant a top roots ms (σ + headerWords) p := by
  have hend := I.end_le hm
  have hsize := m.header.headerWords_le_size
  refine { I with scan_le := by omega, kept := ?_, forwarded := ?_ }
  · intro m' hm' j hj hk
    exact I.kept m' hm' j hj (by omega)
  · intro m' hm' j hj hj2 hlt
    apply I.forwarded m' hm' j hj hj2
    rcases I.apart hm hm' with rfl | h | h
    · omega
    · omega
    · omega

theorem slot_lt {m : Moved} (hm : m ∈ ms) {j : Nat} (hσ : m.target + j = σ) (hj : j < m.header.size) :
    σ < a.spaceWords := by
  have hend := I.end_le hm
  have htop := I.top_le
  omega

/-- The slot at the scan pointer holds what it held before the pass. -/
theorem read_slot {m : Moved} (hm : m ∈ ms) {j : Nat} (hσ : m.target + j = σ) (hj : j < m.header.size) :
    p.arena.read ⟨a.inactive, σ⟩ = .ok (a.word ⟨a.active, m.source + j⟩) := by
  rw [← I.kept m hm j hj (Or.inr (by omega)), hσ]
  exact Arena.read_ok (by rw [I.spaceWords]; exact I.slot_lt hm hσ hj) (I.isOpen _)

/-- The header of a copy is the one that the object has. -/
theorem read_header {m : Moved} (hm : m ∈ ms) :
    Header.read p.arena ⟨p.destination, m.target⟩ = .ok m.header := by
  have hsize := m.header.headerWords_le_size
  have hend := I.end_le hm
  have h0 := I.kept m hm 0 m.header.size_pos (Or.inl (by decide))
  have h1 := I.kept m hm 1 (by unfold headerWords at hsize; omega) (Or.inl (by decide))
  rw [I.destination, Header.read_eq_ok_iff, I.spaceWords]
  refine ⟨?_, I.isOpen _, by have := I.top_le; show m.target + _ ≤ _; omega⟩
  show Header.decode (p.arena.word ⟨a.inactive, m.target + 0⟩) (p.arena.word ⟨a.inactive, m.target + 1⟩) = _
  rw [h0, h1]
  exact (I.objects m hm).header

theorem relocateSlot {m : Moved} (hm : m ∈ ms) {j : Nat} (hσ : m.target + j = σ) (hj : j < m.header.size)
    (hj2 : headerWords ≤ j) :
    Outcome a top roots ms (fun _ ms' σ' _ => σ' = σ + 1 ∧ Met ms [a.word ⟨a.active, m.source + j⟩] ms')
      ((Pass.relocateSlot ⟨a.inactive, σ⟩).run p) := by
  have hlt := I.slot_lt hm hσ hj
  have hread := I.read_slot hm hσ hj
  have hrel := I.relocate fun hz => I.reach_slot hm hj hj2 hz
  unfold Pass.relocateSlot
  rw [run_get_bind, run_liftM_bind hread]
  refine hrel.bind fun new p' ms' σ' hs I' hq => ?_
  obtain ⟨rfl, hf, hmet⟩ := hq
  have hm' := hs.subset hm
  have hlt' : (⟨a.inactive, σ'⟩ : Location).offset < p'.arena.spaceWords := by rw [I'.spaceWords]; exact hlt
  by_cases hnew : new = a.word ⟨a.active, m.source + j⟩
  · rw [if_neg (fun h => h hnew)]
    refine .ok (List.prefix_refl _) (I'.advance hm' hσ hj hj2 (b := p'.arena) ?_ hf) ⟨rfl, hmet⟩
    have hk := I'.kept m hm' j hj (Or.inr (by omega))
    rw [hσ, ← hnew] at hk
    rw [← hk]
    exact Arena.Stored.refl _ _
  · rw [if_pos hnew]
    obtain ⟨b, hb, hst⟩ := Arena.write_ok new hlt' (I'.isOpen _)
    rw [run_get_bind, run_liftM_bind hb]
    exact .ok (List.prefix_refl _) (I'.advance hm' hσ hj hj2 hst hf) ⟨rfl, hmet⟩

end Invariant

/-- The slots of a moved object are forwarded one after another. -/
theorem Invariant.relocateSlots : ∀ {n j σ : Nat} {ms : List Moved} {p : Pass} {m : Moved},
    Invariant a top roots ms σ p → m ∈ ms → m.target + j = σ → j + n = m.header.size → headerWords ≤ j →
    Outcome a top roots ms (fun _ ms' σ' _ => σ' = m.target + m.header.size ∧
        Met ms ((List.range n).map fun i => a.word ⟨a.active, m.source + (j + i)⟩) ms')
      ((Pass.relocateSlots ⟨a.inactive, σ⟩ n).run p)
  | 0, j, σ, ms, p, m, I, hm, hσ, hj, _ => .ok (List.prefix_refl _) I ⟨by omega, .nil⟩
  | n + 1, j, σ, ms, p, m, I, hm, hσ, hj, hj2 => by
    have hwords : (List.range (n + 1)).map (fun i => a.word ⟨a.active, m.source + (j + i)⟩) =
        [a.word ⟨a.active, m.source + j⟩] ++ (List.range n).map fun i => a.word ⟨a.active, m.source + (j + 1 + i)⟩ := by
      rw [List.range_succ_eq_map, List.map_cons, List.map_map, List.singleton_append]
      congr 1
      apply List.map_congr_left
      intro i _
      show a.word ⟨a.active, m.source + (j + (i + 1))⟩ = _
      rw [Nat.add_assoc j 1 i, Nat.add_comm 1 i]
    refine (I.relocateSlot hm hσ (by omega) hj2).bind fun _ p' ms' σ' hs I' hq => ?_
    obtain ⟨rfl, hmet⟩ := hq
    refine (Invariant.relocateSlots (j := j + 1) (σ := σ + 1) I' (hs.subset hm) (by omega) (by omega) (by omega)).imp
      (List.prefix_refl _) fun _ ms'' _ _ _ hq => ⟨hq.1, ?_⟩
    rw [hwords]
    exact hmet.append hq.2

/-- Scanning a copy forwards its slots and leads to the next. -/
theorem Invariant.scanObject (I : Invariant a top roots ms σ p) {m : Moved} (hm : m ∈ ms) (hσ : m.target = σ) :
    Outcome a top roots ms (fun n ms' σ' _ => n = m.header.size ∧ σ' = σ + n ∧ Met ms (a.slotsOf m.old) ms')
      ((Pass.scanObject σ).run p) := by
  have hread : Header.read p.arena ⟨p.destination, σ⟩ = .ok m.header := hσ ▸ I.read_header hm
  unfold Pass.scanObject
  rw [run_get_bind]
  simp only
  rw [run_liftM_bind hread]
  have hslots := (I.skip_header hm hσ).relocateSlots (n := m.header.slotCount) hm (j := headerWords) (by omega)
    m.header.size_eq.symm (Nat.le_refl _)
  have hloc : (⟨p.destination, σ⟩ : Location).add headerWords = ⟨a.inactive, σ + headerWords⟩ := by
    rw [I.destination]; rfl
  rw [hloc]
  refine hslots.bind fun _ p' ms' σ' _ I' hq => ?_
  obtain ⟨hend', hmet⟩ := hq
  refine .ok (List.prefix_refl _) I' ⟨rfl, by rw [hend', hσ], ?_⟩
  rw [(I.objects m hm).slotsOf]
  exact hmet

/-! ## The loops -/

/-- An offset of the destination where the copies of `rest` start. -/
def Boundary (ms rest : List Moved) (σ : Nat) : Prop :=
  ∃ done, ms = done ++ rest ∧ Consecutive 0 (done.map Moved.block) σ

theorem Boundary.zero (ms : List Moved) : Boundary ms ms 0 := ⟨[], rfl, rfl⟩

theorem Boundary.consecutive {rest : List Moved} (h : Boundary ms rest σ) (I : Invariant a top roots ms σ p) :
    Consecutive σ (rest.map Moved.block) p.cursor.top := by
  obtain ⟨done, rfl, hd⟩ := h
  have hb := I.blocks
  rw [List.map_append, Consecutive.append_iff] at hb
  obtain ⟨j, h1, h2⟩ := hb
  have hj : σ = j := hd.end_eq.trans h1.end_eq.symm
  exact hj ▸ h2

/-- A copy starts at every boundary below the cursor, and the next boundary is its end. -/
theorem Boundary.next {rest : List Moved} (h : Boundary ms rest σ) (I : Invariant a top roots ms σ p)
    (hlt : σ < p.cursor.top) :
    ∃ m rest', rest = m :: rest' ∧ m ∈ ms ∧ m.target = σ ∧
      ∀ more, Boundary (ms ++ more) (rest' ++ more) (σ + m.header.size) := by
  have hc := h.consecutive I
  obtain ⟨done, rfl, hd⟩ := h
  cases rest with
  | nil => exact absurd hc (Nat.ne_of_lt hlt)
  | cons m rest =>
    refine ⟨m, rest, rfl, by simp, hc.1, fun more => ⟨done ++ [m], by simp, ?_⟩⟩
    have ht : m.block = (σ, m.header) := Prod.ext hc.1 rfl
    rw [List.map_append, List.map_singleton, ht]
    exact hd.snoc m.header

theorem Boundary.rest_eq_nil {rest : List Moved} (h : Boundary ms rest σ) (I : Invariant a top roots ms σ p)
    (hle : p.cursor.top ≤ σ) : rest = [] := by
  have hc := h.consecutive I
  cases rest with
  | nil => rfl
  | cons m rest =>
    have hend : σ + m.header.size ≤ p.cursor.top := hc.2.le
    have hpos := m.header.size_pos
    omega

/-- Induction along the loop of a scan. The copies of `rest` are those from the pointer on: a round takes the first
of them, and adds those that it makes. -/
theorem Invariant.scan_induct {C : Nat → Pass → List Moved → List Moved → Prop}
    (done : ∀ {ms p}, Invariant a top roots ms p.cursor.top p → C p.cursor.top p ms [])
    (failed : ∀ {ms rest m σ p e p'}, Invariant a top roots ms σ p → m ∈ ms → m.target = σ → σ < p.cursor.top →
      (Pass.scanObject σ).run p = .error e p' → C σ p ms (m :: rest))
    (next : ∀ {ms rest m σ p more p'}, Invariant a top roots ms σ p → m ∈ ms → m.target = σ → σ < p.cursor.top →
      (Pass.scanObject σ).run p = .ok m.header.size p' → Invariant a top roots (ms ++ more) (σ + m.header.size) p' →
      Met ms (a.slotsOf m.old) (ms ++ more) → C (σ + m.header.size) p' (ms ++ more) (rest ++ more) →
      C σ p ms (m :: rest))
    (σ : Nat) (p : Pass) : ∀ {ms rest : List Moved}, Invariant a top roots ms σ p → Boundary ms rest σ →
      C σ p ms rest := by
  induction σ, p using Pass.scanFrom.induct with
  | case1 σ p hlt e p' hr =>
    intro ms rest I hb
    obtain ⟨m, _, rfl, hm, hσ, _⟩ := hb.next I hlt
    exact failed I hm hσ hlt hr
  | case2 σ p hlt n p' hr ih =>
    intro ms rest I hb
    obtain ⟨m, rest', rfl, hm, hσ, hnext⟩ := hb.next I hlt
    have hout := I.scanObject hm hσ
    rw [hr] at hout
    cases hout with
    | ok hs I' hq =>
      obtain ⟨rfl, rfl, hmet⟩ := hq
      obtain ⟨more, rfl⟩ := hs
      exact next I hm hσ hlt hr I' hmet (ih I' (hnext more))
  | case3 σ p hlt =>
    intro ms rest I hb
    obtain rfl := hb.rest_eq_nil I (Nat.not_lt.mp hlt)
    obtain rfl := Nat.le_antisymm I.scan_le (Nat.not_lt.mp hlt)
    exact done I

/-- The scan ends at the cursor, wherever the copies it makes put that. -/
theorem Invariant.scanFrom {rest : List Moved} (I : Invariant a top roots ms σ p) (hb : Boundary ms rest σ) :
    Outcome a top roots ms (fun _ ms' σ' p' => σ' = p'.cursor.top ∧
      a.BreadthFirst (ms.map Moved.old) (rest.map Moved.old) (ms'.map Moved.old)) (Pass.scanFrom σ p) := by
  refine Invariant.scan_induct (C := fun σ p ms rest => Outcome a top roots ms (fun _ ms' σ' p' => σ' = p'.cursor.top ∧
    a.BreadthFirst (ms.map Moved.old) (rest.map Moved.old) (ms'.map Moved.old)) (Pass.scanFrom σ p))
    ?done ?failed ?next σ p I hb
  case done =>
    intro ms p I
    rw [scanFrom_done (Nat.le_refl _)]
    exact .ok (List.prefix_refl _) I ⟨rfl, .done⟩
  case failed =>
    intro ms rest m σ p e p' I hm hσ hlt hr
    have hout := I.scanObject hm hσ
    rw [hr] at hout
    rw [scanFrom_error hlt hr]
    cases hout with
    | error hs hi hn => exact .error hs hi hn
  case next =>
    intro ms rest m σ p more p' I hm hσ hlt hr I' hmet ih
    rw [scanFrom_next hlt hr]
    refine ih.imp (List.prefix_append ..) fun _ _ _ _ _ hq => ⟨hq.1, .scan ?_⟩
    -- what the scan of this object moved is what its slots show for the first time
    have hmore : more.map Moved.old = fresh (ms.map Moved.old) (a.slotsOf m.old) := by
      unfold Met at hmet
      rw [List.map_append] at hmet
      exact List.append_cancel_left hmet
    rw [← hmore, ← List.map_append, ← List.map_append]
    exact hq.2

/-- Every root is forwarded, in order. -/
theorem Invariant.relocateRoots : ∀ {rs : List Ref} {σ : Nat} {ms : List Moved} {p : Pass},
    Invariant a top roots ms σ p → (∀ r ∈ rs, r ∈ roots) →
    Outcome a top roots ms (fun _ ms' σ' _ => σ' = σ ∧
      List.Forall₂ (fun r r' : Ref => Forwards a ms' r.addr r'.addr) rs (Pass.relocateRoots rs p).1 ∧
      Met ms (rs.map Ref.addr) ms')
      (Pass.relocateRoots rs p).2
  | [], _, _, _, I, _ => .ok (List.prefix_refl _) I ⟨rfl, .nil, .nil⟩
  | r :: rs, σ, ms, p, I, hr => by
    have h := I.relocate (w := r.addr) fun _ => .root (hr r (List.mem_cons_self ..))
    cases hrun : (Pass.relocate r.addr).run p with
    | error e p' =>
      rw [hrun] at h
      rw [relocateRoots_cons_error rs hrun]
      cases h with
      | error hs hi hn => exact .error hs hi hn
    | ok w p' =>
      rw [hrun] at h
      cases h with
      | @ok _ ms' σ' _ hs hi hq =>
        obtain ⟨rfl, hf, hmet⟩ := hq
        obtain ⟨m, hm, hmo, rfl⟩ := hf.resolve_left fun hz => r.ne_zero hz.1
        have hne : a.address ⟨a.inactive, m.target⟩ ≠ 0 := a.layout.address_ne_zero (hi.target_lt hm)
        rw [relocateRoots_cons_ok rs hrun (Ref.ofWord?_of_ne hne)]
        refine (Invariant.relocateRoots hi fun r' hr' => hr r' (List.mem_cons_of_mem _ hr')).imp hs ?_
        intro _ ms'' _ _ hs' hq
        exact ⟨hq.1, .cons (Or.inr ⟨m, hs'.subset hm, hmo, rfl⟩) hq.2.1, hmet.append hq.2.2⟩

theorem Invariant.start (a : Arena) (top : Nat) (roots : List Ref) :
    Invariant a top roots [] 0 (Pass.ofArena a.openInactive top) where
  layout := rfl
  active := rfl
  opened := rfl
  sourceTop := rfl
  capacity := rfl
  source _ _ := rfl
  table := rfl
  noted := rfl
  nodup := List.nodup_nil
  objects _ h := by cases h
  reached _ h := by cases h
  blocks := rfl
  scan_le := Nat.zero_le _
  kept _ h := by cases h
  forwarded _ h := by cases h

end Semispace.Pass

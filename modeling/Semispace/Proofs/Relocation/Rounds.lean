import Semispace.Proofs.Relocation.Scan

/-!
# The rounds of a scan

The loop of a scan runs up to the cursor of the destination, which its body moves. Each round scans one
copy, and a copy takes at least two words; so no pass makes more copies than half the words of a half,
and no scan goes more rounds than there are copies, whatever the words of the heap (`Pass.scan_ends`).
-/

namespace Semispace.Pass

/-- The loop of a scan from the pointer `σ` on: it scans at the pointers `σs`, and ends with the pointer
at `σ'` as the last index says. -/
inductive Rounds : Nat → Pass → List Nat → Nat → EStateM.Result Error Pass Unit → Prop
  | done {σ : Nat} {p : Pass} : p.cursor.top ≤ σ → Rounds σ p [] σ (.ok () p)
  | failed {σ : Nat} {p p' : Pass} {e : Error} : σ < p.cursor.top → (scanObject σ).run p = .error e p' →
      Rounds σ p [σ] σ (.error e p')
  | next {σ σ' n : Nat} {p p' : Pass} {σs : List Nat} {r : EStateM.Result Error Pass Unit} : σ < p.cursor.top →
      (scanObject σ).run p = .ok n p' → Rounds (σ + n) p' σs σ' r → Rounds σ p (σ :: σs) σ' r

theorem exists_rounds (σ : Nat) (p : Pass) : ∃ σs σ', Rounds σ p σs σ' (scanFrom σ p) := by
  induction σ, p using Pass.scanFrom.induct with
  | case1 σ p hlt e p' hr =>
    rw [scanFrom_error hlt hr]
    exact ⟨_, _, .failed hlt hr⟩
  | case2 σ p hlt n p' hr ih =>
    rw [scanFrom_next hlt hr]
    obtain ⟨σs, σ', h⟩ := ih
    exact ⟨_, _, .next hlt hr h⟩
  | case3 σ p hlt =>
    rw [scanFrom_done (Nat.not_lt.mp hlt)]
    exact ⟨_, _, .done (Nat.not_lt.mp hlt)⟩

namespace Rounds

variable {σ σ' : Nat} {p : Pass} {σs : List Nat} {r : EStateM.Result Error Pass Unit}

theorem eq_scanFrom (h : Rounds σ p σs σ' r) : r = scanFrom σ p := by
  induction h with
  | done h => rw [scanFrom_done h]
  | failed h hr => rw [scanFrom_error h hr]
  | next h hr _ ih => rw [scanFrom_next h hr, ih]

theorem start_le (h : Rounds σ p σs σ' r) : σ ≤ σ' ∧ ∀ x ∈ σs, σ ≤ x := by
  induction h with
  | done _ => exact ⟨Nat.le_refl _, fun _ hx => absurd hx List.not_mem_nil⟩
  | failed _ _ => exact ⟨Nat.le_refl _, fun x hx => Nat.le_of_eq (List.mem_singleton.mp hx).symm⟩
  | next _ _ _ ih =>
    refine ⟨by omega, fun x hx => ?_⟩
    rcases List.mem_cons.mp hx with rfl | hx
    · exact Nat.le_refl _
    · have := ih.2 x hx
      omega

/-- The pointer moves in every round that does not fail. -/
theorem increasing (h : Rounds σ p σs σ' r) :
    σs.Pairwise (· < ·) ∧ ∀ p', r = .ok () p' → ∀ x ∈ σs, x < σ' := by
  induction h with
  | done _ => exact ⟨.nil, fun _ _ _ hx => absurd hx List.not_mem_nil⟩
  | failed _ _ => exact ⟨List.pairwise_singleton _ _, fun p' he => by cases he⟩
  | next _ hr hrest ih =>
    have hpos := pos_of_scanObject hr
    obtain ⟨hend, hge⟩ := hrest.start_le
    refine ⟨List.pairwise_cons.mpr ⟨fun y hy => ?_, ih.1⟩, fun p' he x hx => ?_⟩
    · have := hge y hy
      omega
    · rcases List.mem_cons.mp hx with rfl | hx
      · omega
      · exact ih.2 p' he x hx

end Rounds

variable {a : Arena} {top σ : Nat} {roots : List Ref} {ms : List Moved} {p : Pass}

/-- Every copy takes two words of the destination at least. -/
theorem Invariant.objectsCopied_le (I : Invariant a top roots ms σ p) :
    p.copier.objectsCopied = ms.length ∧ ms.length ≤ a.spaceWords / 2 := by
  have hwords := I.blocks.length_le
  have htop := I.top_le
  rw [List.length_map] at hwords
  unfold headerWords at hwords
  exact ⟨I.copies, by omega⟩

/-- A loop that starts where the copies of `rest` do scans each of them, and the copies it makes, at most
once. -/
theorem Invariant.rounds {σ' : Nat} {σs : List Nat} {r : EStateM.Result Error Pass Unit} (h : Rounds σ p σs σ' r) :
    ∀ {ms rest : List Moved}, Invariant a top roots ms σ p → Boundary ms rest σ →
      (∃ ms' σ'', Invariant a top roots ms' σ'' (endState r) ∧ ms.length + σs.length ≤ ms'.length + rest.length) ∧
      ∀ p', r = .ok () p' → σ' = p'.cursor.top := by
  -- a round takes one copy off `rest`, and the copies it makes are added to both `ms` and `rest`
  induction h with
  | done h =>
    intro ms rest I hb
    rw [hb.rest_eq_nil I h]
    refine ⟨⟨ms, _, I, Nat.le_refl _⟩, fun p' he => ?_⟩
    cases he
    exact Nat.le_antisymm I.scan_le h
  | failed hlt hr =>
    intro ms rest I hb
    obtain ⟨m, rest', rfl, hm, hσ, _⟩ := hb.next I hlt
    have hout := I.scanObject hm hσ
    rw [hr] at hout
    cases hout with
    | @error _ ms' σ'' _ hs hi _ =>
      have hlen := hs.length_le
      refine ⟨⟨ms', σ'', hi, ?_⟩, fun p' he => by cases he⟩
      rw [List.length_singleton, List.length_cons]
      omega
  | next hlt hr _ ih =>
    intro ms rest I hb
    obtain ⟨m, rest', rfl, hm, hσ, hnext⟩ := hb.next I hlt
    have hout := I.scanObject hm hσ
    rw [hr] at hout
    cases hout with
    | ok hs hi hq =>
      obtain ⟨hn, rfl, _⟩ := hq
      obtain ⟨more, rfl⟩ := hs
      obtain ⟨⟨ms', σ'', I', hlen⟩, hend⟩ := ih hi (hn ▸ hnext more)
      refine ⟨⟨ms', σ'', I', ?_⟩, hend⟩
      rw [List.length_append, List.length_append] at hlen
      rw [List.length_cons, List.length_cons]
      omega

theorem start_eq_ok {q : Pass} (h : start a top = .ok q) : q = ofArena a.openInactive top := by
  unfold start at h
  split at h
  · cases h
  · next hclosed =>
    have hopen : a.inactiveOpen = true := by
      rw [← a.isOpen_inactive, Arena.isOpen, Bool.not_eq_true _ |>.mp hclosed]
      rfl
    cases h
    rw [Arena.openInactive, ← hopen]

/-- Whatever the words of the heap and the roots, a pass comes to an end: relocating the roots makes no
more copies than half the words of a half, and neither does the scan after it, which goes no more rounds
than there are copies. -/
theorem scan_ends {q : Pass} (h : start a top = .ok q) (roots : List Ref) :
    (endState (relocateRoots roots q).2).copier.objectsCopied ≤ a.spaceWords / 2 ∧
    ∀ moved, (relocateRoots roots q).2 = .ok () moved →
      (∃ σs σ, Rounds 0 moved σs σ (scan.run moved)) ∧
      ∀ σs σ r, Rounds 0 moved σs σ r → r = scan.run moved ∧
        (endState r).copier.objectsCopied ≤ a.spaceWords / 2 ∧ σs.length ≤ (endState r).copier.objectsCopied ∧
        σs.Pairwise (· < ·) ∧ ∀ p', r = .ok () p' → σ = p'.cursor.top ∧ ∀ x ∈ σs, x < σ := by
  have hout := (Invariant.start a top roots).relocateRoots fun r hr => hr
  rw [← start_eq_ok h] at hout
  refine ⟨?_, fun moved hmoved => ?_⟩
  · generalize (relocateRoots roots q).2 = result at hout
    cases hout with
    | ok _ I _ => exact I.objectsCopied_le.1 ▸ I.objectsCopied_le.2
    | error _ I _ => exact I.objectsCopied_le.1 ▸ I.objectsCopied_le.2
  rw [hmoved] at hout
  cases hout with
  | @ok _ ms _ _ _ I hq =>
    obtain ⟨rfl, _⟩ := hq
    refine ⟨exists_rounds 0 moved, fun σs σ r hr => ?_⟩
    obtain ⟨⟨ms', σ', I', hlen⟩, hend⟩ := I.rounds hr (Boundary.zero ms)
    obtain ⟨hcount, hle⟩ := I'.objectsCopied_le
    obtain ⟨hpair, hlast⟩ := hr.increasing
    refine ⟨hr.eq_scanFrom, hcount ▸ hle, ?_, hpair, fun p' he => ⟨hend p' he, hlast p' he⟩⟩
    rw [hcount]
    omega

/-- A vector with a slot that refers to itself, and in its second word the start of an empty vector. -/
def knot : Arena :=
  let a : Arena := ⟨⟨.standard, 16, by decide, by decide⟩, .low, true, .empty⟩
  { a with memory := [(0, 2), (1, 2), (3, a.address ⟨.low, 0⟩)].foldl (fun m e => m.write e.1 e.2) .empty }

def knotRoots : List Ref :=
  [0, 1].filterMap fun o => Ref.ofWord? (knot.address ⟨.low, o⟩)

theorem scan_ends_knot : ∃ q moved σs σ, start knot 4 = .ok q ∧ (relocateRoots knotRoots q).2 = .ok () moved ∧
    moved.copier.objectsCopied = 2 ∧ Rounds 0 moved σs σ (scan.run moved) ∧ σs.length ≤ 8 := by
  have h : start knot 4 = .ok (ofArena knot 4) := if_neg (by decide +kernel)
  obtain ⟨u, moved, hmoved⟩ := exists_of_isSome (r := (relocateRoots knotRoots (ofArena knot 4)).2) (by decide +kernel)
  have hcopies : (endState (relocateRoots knotRoots (ofArena knot 4)).2).copier.objectsCopied = 2 := by decide +kernel
  rw [hmoved] at hcopies
  obtain ⟨⟨σs, σ, hrounds⟩, hall⟩ := (scan_ends h knotRoots).2 moved hmoved
  obtain ⟨_, hle, hlen, _⟩ := hall σs σ _ hrounds
  exact ⟨_, moved, σs, σ, h, hmoved, hcopies, hrounds, hlen.trans hle⟩

end Semispace.Pass

import Mathlib.Data.Set.Function
import Semispace.Collector.Cycle
import Semispace.Proofs.Relocation.Scan

/-!
# Completed passes

`relocateLive_ok_iff`: a pass completes exactly when what the live roots reach are objects and fit
in a half. What it leaves then is an isomorphic copy of it (`Copied`), and nothing else.
-/

namespace Semispace

/-- `b` has in its active half, up to `top'`, a copy of what `roots` reach in `a`: the records `rs`,
one for each reached address `w`, at the address `f w`. The header is copied word for word, and each
slot refers to the copy of what it referred to. -/
structure Copied (a b : Arena) (top top' : Nat) (roots : List Ref) (f : Word → Word)
    (rs : List (Nat × Header)) : Prop where
  layout : b.layout = a.layout
  active : b.active = a.inactive
  tiled : b.Tiled rs top'
  top_le : top' ≤ b.spaceWords
  bijective : Set.BijOn f {w | a.Reach roots w} {w | b.Starts rs w}
  zero : f 0 = 0
  object : ∀ w, a.Reach roots w → ∃ o o' h, a.ObjectAt top w o h ∧ (o', h) ∈ rs ∧
    f w = b.address ⟨b.active, o'⟩ ∧
    (∀ j < headerWords, b.word ⟨b.active, o' + j⟩ = a.word ⟨a.active, o + j⟩) ∧
    ∀ i < h.slotCount, b.slotAt ⟨b.active, o'⟩ i = f (a.slotAt ⟨a.active, o⟩ i)

/-- No copy is at address zero. -/
theorem Copied.ne_zero {a b : Arena} {top top' : Nat} {roots : List Ref} {f : Word → Word} {rs : List (Nat × Header)}
    (C : Copied a b top top' roots f rs) {w : Word} (h : a.Reach roots w) : f w ≠ 0 := by
  obtain ⟨e, he, hw⟩ := C.bijective.mapsTo h
  rw [hw]
  exact (C.tiled.objectAt C.top_le he).ne_zero

/-- What is stored after the copies does not matter to them. -/
theorem Copied.congr {a b b' : Arena} {top top' : Nat} {roots : List Ref} {f : Word → Word} {rs : List (Nat × Header)}
    (C : Copied a b top top' roots f rs) (hl : b'.layout = b.layout) (ha : b'.active = b.active)
    (hm : ∀ i < top', b'.word ⟨b.active, i⟩ = b.word ⟨b.active, i⟩) : Copied a b' top top' roots f rs := by
  have haddr : ∀ loc, b'.address loc = b.address loc := by
    intro loc
    unfold Arena.address
    rw [hl]
  have hkept : ∀ e ∈ rs, ∀ j < e.2.size, b'.word ⟨b'.active, e.1 + j⟩ = b.word ⟨b.active, e.1 + j⟩ := by
    intro e he j hj
    have hend := (C.tiled.consecutive.bounds he).2
    rw [ha]
    exact hm _ (by omega)
  refine ⟨hl.trans C.layout, ha.trans C.active, ⟨C.tiled.consecutive, ?_⟩, ?_, ?_, C.zero, ?_⟩
  · intro e he
    have hsize := e.2.headerWords_le_size
    have h0 := hkept e he 0 (Nat.lt_of_lt_of_le (by decide) hsize)
    have h1 := hkept e he 1 (Nat.lt_of_lt_of_le (by decide) hsize)
    exact (congrArg₂ Header.decode h0 h1).trans (C.tiled.header e he)
  · unfold Arena.spaceWords
    rw [hl]
    exact C.top_le
  · rw [Arena.starts_congr hl ha]
    exact C.bijective
  · intro w hw
    obtain ⟨o, o', h, x, he, hf, hhead, hslot⟩ := C.object w hw
    have hsize := h.size_eq
    refine ⟨o, o', h, x, he, ?_, ?_, ?_⟩
    · rw [haddr, ha]
      exact hf
    · intro j hj
      exact (hkept _ he j (Nat.lt_of_lt_of_le hj h.headerWords_le_size)).trans (hhead j hj)
    · intro i hi
      exact (hkept _ he (headerWords + i) (by dsimp only; omega)).trans (hslot i hi)

/-- The address of the copy of an object, zero for any other word. -/
def newAddress (a : Arena) (ms : List Moved) (w : Word) : Word :=
  ((ms.find? fun m => m.old == w).map fun m => a.address ⟨a.inactive, m.target⟩).getD 0

namespace Pass.Invariant

variable {a : Arena} {top σ : Nat} {roots : List Ref} {ms : List Moved} {p : Pass}

theorem newAddress_old (I : Invariant a top roots ms σ p) {m : Moved} (hm : m ∈ ms) :
    newAddress a ms m.old = a.address ⟨a.inactive, m.target⟩ := by
  unfold newAddress
  cases hf : ms.find? fun e => e.old == m.old with
  | none => exact absurd (List.find?_eq_none.mp hf m hm) (by simp)
  | some m' =>
    have ho : m'.old = m.old := by simpa using List.find?_some hf
    rw [I.eq_of_old (List.mem_of_find?_eq_some hf) hm ho]
    rfl

theorem newAddress_zero (I : Invariant a top roots ms σ p) : newAddress a ms 0 = 0 := by
  unfold newAddress
  have : ms.find? (fun m => m.old == 0) = none :=
    List.find?_eq_none.mpr fun m hm => by simpa using (I.objects m hm).ne_zero
  rw [this]
  rfl

theorem eq_newAddress (I : Invariant a top roots ms σ p) {w w' : Word} (h : Forwards a ms w w') :
    w' = newAddress a ms w := by
  rcases h with ⟨rfl, rfl⟩ | ⟨m, hm, rfl, rfl⟩
  · exact I.newAddress_zero.symm
  · exact (I.newAddress_old hm).symm

/-- Objects moved and their copies correspond. -/
theorem bijOn_newAddress (I : Invariant a top roots ms σ p) : Set.BijOn (newAddress a ms) {w | ∃ m ∈ ms, m.old = w}
    {w | ∃ e ∈ ms.map Moved.block, w = a.address ⟨a.inactive, e.1⟩} := by
  refine ⟨?_, ?_, ?_⟩
  · rintro _ ⟨m, hm, rfl⟩
    exact ⟨m.block, List.mem_map_of_mem hm, I.newAddress_old hm⟩
  · rintro _ ⟨m, hm, rfl⟩ _ ⟨m', hm', rfl⟩ he
    rw [I.newAddress_old hm, I.newAddress_old hm'] at he
    have ht : m.target = m'.target :=
      congrArg Location.offset (Arena.address_injective (I.target_lt hm) (I.target_lt hm') he)
    have hs := I.blocks.nodup_starts
    rw [List.map_map] at hs
    rw [List.inj_on_of_nodup_map hs hm hm' ht]
  · rintro w ⟨e, he, rfl⟩
    obtain ⟨m, hm, rfl⟩ := List.mem_map.mp he
    exact ⟨m.old, ⟨m, hm, rfl⟩, I.newAddress_old hm⟩

theorem forwards_roots (I : Invariant a top roots ms σ p) {rs rs' : List Ref}
    (h : List.Forall₂ (fun r r' : Ref => Forwards a ms r.addr r'.addr) rs rs') :
    (∀ r ∈ rs, ∃ m ∈ ms, m.old = r.addr) ∧ rs'.map Ref.addr = rs.map fun r => newAddress a ms r.addr := by
  induction h with
  | nil => exact ⟨fun _ h => (List.not_mem_nil h).elim, rfl⟩
  | @cons r r' _ _ hf _ ih =>
    obtain ⟨m, hm, ho, _⟩ := hf.resolve_left fun hz => r.ne_zero hz.1
    refine ⟨?_, ?_⟩
    · intro x hx
      cases hx with
      | head => exact ⟨m, hm, ho⟩
      | tail _ hx => exact ih.1 x hx
    · rw [List.map_cons, List.map_cons, ih.2, I.eq_newAddress hf]

/-- A completed pass has moved exactly what the roots reach. -/
theorem reach_iff (I : Invariant a top roots ms p.cursor.top p) (hr : ∀ r ∈ roots, ∃ m ∈ ms, m.old = r.addr)
    {w : Word} : a.Reach roots w ↔ ∃ m ∈ ms, m.old = w := by
  constructor
  · intro h
    induction h with
    | root hmem => exact hr _ hmem
    | @slot w o h i _ hl hh hi hz ih =>
      -- the scan has reached the end, so the slot of the copy is forwarded
      obtain ⟨m, hm, rfl⟩ := ih
      have x := I.objects m hm
      obtain ⟨rfl, rfl⟩ := x.agree hl hh
      have hsize := m.header.size_eq
      have hend := I.end_le hm
      have hf := I.forwarded m hm (headerWords + i) (by omega) (Nat.le_add_right _ _) (by omega)
      rcases hf with ⟨h0, _⟩ | ⟨m', hm', ho, _⟩
      · exact absurd h0 hz
      · exact ⟨m', hm', ho⟩
  · intro hex
    obtain ⟨m, hm, rfl⟩ := hex
    exact I.reached m hm

/-- The words that are reached, listed without repetition, are those that a completed pass has moved. -/
theorem perm_moved (I : Invariant a top roots ms p.cursor.top p) (hr : ∀ r ∈ roots, ∃ m ∈ ms, m.old = r.addr)
    {ws : List Word} (hn : ws.Nodup) (hw : ∀ w, w ∈ ws ↔ a.Reach roots w) : ws.Perm (ms.map Moved.old) :=
  (List.perm_ext_iff_of_nodup hn I.nodup).mpr fun w => (hw w).trans ((I.reach_iff hr).trans List.mem_map.symm)

theorem fits (I : Invariant a top roots ms p.cursor.top p) (hr : ∀ r ∈ roots, ∃ m ∈ ms, m.old = r.addr) :
    Fits a top roots where
  objects w hw := by
    obtain ⟨m, hm, rfl⟩ := (I.reach_iff hr).mp hw
    exact ⟨m.source, m.header, I.objects m hm⟩
  room ws hn hs := by
    have hsub : ws ⊆ ms.map Moved.old := by
      intro w hw
      obtain ⟨m, hm, rfl⟩ := (I.reach_iff hr).mp (hs w hw)
      exact List.mem_map_of_mem hm
    exact Nat.le_trans (sum_map_le_of_subset a.sizeAt hn hsub) (I.sum_sizes ▸ I.top_le)

/-- Exchanging the halves after a completed pass makes the copies the heap. -/
theorem copied (I : Invariant a top roots ms p.cursor.top p) (hr : ∀ r ∈ roots, ∃ m ∈ ms, m.old = r.addr) :
    Copied a p.arena.swap top p.cursor.top roots (newAddress a ms) (ms.map Moved.block) := by
  have hact : p.arena.swap.active = a.inactive := I.destination
  have haddr : ∀ loc, p.arena.swap.address loc = a.address loc := I.address
  have hhead : ∀ m ∈ ms, ∀ j < headerWords,
      p.arena.swap.word ⟨p.arena.swap.active, m.target + j⟩ = a.word ⟨a.active, m.source + j⟩ := by
    intro m hm j hj
    rw [hact]
    exact I.kept m hm j (Nat.lt_of_lt_of_le hj m.header.headerWords_le_size) (Or.inl hj)
  have htiled : p.arena.swap.Tiled (ms.map Moved.block) p.cursor.top := by
    refine ⟨I.blocks, ?_⟩
    intro e he
    obtain ⟨m, hm, rfl⟩ := List.mem_map.mp he
    have h0 := hhead m hm 0 (by decide)
    have h1 := hhead m hm 1 (by decide)
    exact (congrArg₂ Header.decode h0 h1).trans (I.objects m hm).header
  have hreach : {w | a.Reach roots w} = {w | ∃ m ∈ ms, m.old = w} := Set.ext fun w => I.reach_iff hr
  have hstarts : {w | p.arena.swap.Starts (ms.map Moved.block) w} =
      {w | ∃ e ∈ ms.map Moved.block, w = a.address ⟨a.inactive, e.1⟩} := by
    unfold Arena.Starts
    simp only [haddr, hact]
  refine ⟨I.layout, hact, htiled, I.spaceWords.symm ▸ I.top_le, ?_, I.newAddress_zero, ?_⟩
  · rw [hreach, hstarts]
    exact I.bijOn_newAddress
  · intro w hw
    obtain ⟨m, hm, rfl⟩ := (I.reach_iff hr).mp hw
    refine ⟨m.source, m.target, m.header, I.objects m hm, List.mem_map_of_mem hm, ?_, hhead m hm, ?_⟩
    · rw [I.newAddress_old hm, haddr, hact]
    · intro i hi
      have hsize := m.header.size_eq
      have hend := I.end_le hm
      rw [hact]
      exact I.eq_newAddress (I.forwarded m hm (headerWords + i) (by omega) (Nat.le_add_right _ _) (by omega))

end Pass.Invariant

namespace Collector

theorem relocateLive_outcome (c : Collector) (live : Nat) :
    Pass.Outcome c.arena c.cursor.top (c.roots.bottom live) []
      (fun _ ms σ p => σ = p.cursor.top ∧
        List.Forall₂ (fun r r' : Ref => Forwards c.arena ms r.addr r'.addr) (c.roots.bottom live)
          (c.relocateLive live).1 ∧
        c.arena.MeetsAll (c.roots.bottom live) (ms.map Moved.old))
      (c.relocateLive live).2 := by
  have h := (Pass.Invariant.start c.arena c.cursor.top (c.roots.bottom live)).relocateRoots fun r hr => hr
  unfold relocateLive
  dsimp only
  cases hr : (Pass.relocateRoots (c.roots.bottom live) (Pass.ofArena c.arena.openInactive c.cursor.top)).2 with
  | error e p =>
    rw [hr] at h
    cases h with
    | error hs hi hn => exact .error hs hi hn
  | ok u p =>
    rw [hr] at h
    cases h with
    | ok hs hi hq =>
      obtain ⟨rfl, hf, hmet⟩ := hq
      refine (hi.scanFrom (Pass.Boundary.zero _)).imp hs fun _ ms' _ _ hs' hq' => ⟨hq'.1, ?_, ?_⟩
      · exact hf.imp fun _ _ h => h.mono hs'
      · have hfirst := hq'.2
        rw [hmet] at hfirst
        exact hfirst

theorem relocateLive_invariant (c : Collector) (live : Nat) :
    ∃ ms σ, Pass.Invariant c.arena c.cursor.top (c.roots.bottom live) ms σ (endState (c.relocateLive live).2) := by
  have h := c.relocateLive_outcome live
  cases hr : (c.relocateLive live).2 with
  | ok u p =>
    rw [hr] at h
    cases h with
    | ok _ I _ => exact ⟨_, _, I⟩
  | error e p =>
    rw [hr] at h
    cases h with
    | error _ I _ => exact ⟨_, _, I⟩

theorem relocateLive_ok {c : Collector} {live : Nat} {p : Pass} (h : (c.relocateLive live).2 = .ok () p) :
    ∃ ms, Pass.Invariant c.arena c.cursor.top (c.roots.bottom live) ms p.cursor.top p ∧
      (∀ r ∈ c.roots.bottom live, ∃ m ∈ ms, m.old = r.addr) ∧
      c.arena.MeetsAll (c.roots.bottom live) (ms.map Moved.old) ∧
      (c.relocateLive live).1.map Ref.addr =
        (c.roots.bottom live).map fun r => newAddress c.arena ms r.addr := by
  have ho := c.relocateLive_outcome live
  rw [h] at ho
  cases ho with
  | ok _ hi hq =>
    obtain ⟨rfl, hf, hmet⟩ := hq
    obtain ⟨hr, haddr⟩ := hi.forwards_roots hf
    exact ⟨_, hi, hr, hmet, haddr⟩

/-- What a completed pass counts: the objects that the live roots reach, and their words. -/
theorem relocateLive_counts {c : Collector} {live : Nat} {p : Pass} {ws : List Word}
    (h : (c.relocateLive live).2 = .ok () p) (hn : ws.Nodup) (hw : ∀ w, w ∈ ws ↔ c.arena.Reach (c.roots.bottom live) w) :
    p.cursor.top = (ws.map c.arena.sizeAt).sum ∧ p.copier.objectsCopied = ws.length ∧ p.table.size = ws.length := by
  obtain ⟨ms, I, hr, _⟩ := relocateLive_ok h
  have hperm := I.perm_moved hr hn hw
  have htable := congrArg List.length I.table
  rw [List.length_map] at htable
  have hlen : ws.length = ms.length := hperm.length_eq.trans (List.length_map ..)
  refine ⟨?_, hlen ▸ I.copies, hlen ▸ htable⟩
  rw [← I.sum_sizes, (hperm.map _).sum_eq]

/-- A pass completes exactly when what the live roots reach is made of objects and fits in a half. -/
theorem relocateLive_ok_iff {c : Collector} {live : Nat} :
    (∃ p, (c.relocateLive live).2 = .ok () p) ↔ Fits c.arena c.cursor.top (c.roots.bottom live) := by
  constructor
  · intro hex
    obtain ⟨p, h⟩ := hex
    obtain ⟨ms, hi, hr, _⟩ := relocateLive_ok h
    exact hi.fits hr
  · intro F
    have ho := c.relocateLive_outcome live
    cases hr : (c.relocateLive live).2 with
    | ok u p => exact ⟨p, rfl⟩
    | error e p =>
      rw [hr] at ho
      cases ho with
      | error _ _ hn => exact absurd F hn.not_fits

/-- A pass that meets objects only completes when they fit in a half, and wants room otherwise. -/
theorem relocateLive_of_objects {c : Collector} {live : Nat} {ws : List Word}
    (ho : ∀ w, c.arena.Reach (c.roots.bottom live) w → ∃ o h, c.arena.ObjectAt c.cursor.top w o h) (hn : ws.Nodup)
    (hw : ∀ w, w ∈ ws ↔ c.arena.Reach (c.roots.bottom live) w) :
    ((ws.map c.arena.sizeAt).sum ≤ c.arena.spaceWords →
      ∃ p, (c.relocateLive live).2 = .ok () p ∧ p.cursor.top = (ws.map c.arena.sizeAt).sum) ∧
    (c.arena.spaceWords < (ws.map c.arena.sizeAt).sum →
      ∃ w n k p, (c.relocateLive live).2 = .error (.internal (.destinationExhausted w n k)) p) := by
  constructor
  · intro hle
    have F : Fits c.arena c.cursor.top (c.roots.bottom live) := ⟨ho, fun vs hvs hr =>
      (sum_map_le_of_subset c.arena.sizeAt hvs fun v hv => (hw v).mpr (hr v hv)).trans hle⟩
    obtain ⟨p, hp⟩ := relocateLive_ok_iff.mpr F
    exact ⟨p, hp, (relocateLive_counts hp hn hw).1⟩
  · intro hlt
    have hout := c.relocateLive_outcome live
    cases hr : (c.relocateLive live).2 with
    | ok u p =>
      have F := relocateLive_ok_iff.mp ⟨p, hr⟩
      exact absurd (F.room ws hn fun w h => (hw w).mp h) (Nat.not_le.mpr hlt)
    | error e p =>
      rw [hr] at hout
      cases hout with
      | error _ _ hm =>
        cases hm with
        | noObject hreach hnone =>
          obtain ⟨o, h, x⟩ := ho _ hreach
          exact absurd x (hnone o h)
        | @noRoom _ w n k _ _ _ => exact ⟨w, n, k, p, rfl⟩

end Collector

end Semispace

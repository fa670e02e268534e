import Semispace.Proofs.Collector.Cycle

/-!
# The heap after a collection

Whatever words the heap held before, a collection that answers leaves nothing in the active half but
whole records, in the order in which they were copied, and their slots refer to records or to nothing.
Records may overlap in the source, and a slot there may hold any word; both end with the pass.
-/

namespace Semispace

/-- The active half holds the records `rs` up to `top` and nothing else, and their slots refer to
records of these or to nothing. -/
structure Arena.Normal (a : Arena) (rs : List (Nat × Header)) (top : Nat) : Prop extends a.Tiled rs top where
  top_le : top ≤ a.spaceWords
  slots : ∀ e ∈ rs, ∀ i < e.2.slotCount,
    a.slotAt ⟨a.active, e.1⟩ i = 0 ∨ a.Starts rs (a.slotAt ⟨a.active, e.1⟩ i)

/-- What roots at records reach are records. -/
theorem Arena.Normal.starts {a : Arena} {rs : List (Nat × Header)} {top : Nat} {roots : List Ref} {w : Word}
    (N : a.Normal rs top) (hr : ∀ r ∈ roots, a.Starts rs r.addr) (hw : a.Reach roots w) : a.Starts rs w := by
  induction hw with
  | root hmem => exact hr _ hmem
  | slot _ hl hh hi hz ih =>
    obtain ⟨e, he, rfl⟩ := ih
    obtain ⟨rfl, rfl⟩ := (N.objectAt N.top_le he).agree hl hh
    exact (N.slots e he _ hi).resolve_left hz

section
variable {a b : Arena} {top top' : Nat} {roots : List Ref} {f : Word → Word} {rs : List (Nat × Header)}

/-- Every record is the copy of something that was reached. -/
theorem Copied.exists_source (C : Copied a b top top' roots f rs) {e : Nat × Header} (he : e ∈ rs) :
    ∃ w o, a.Reach roots w ∧ a.ObjectAt top w o e.2 ∧ f w = b.address ⟨b.active, e.1⟩ ∧
      ∀ i < e.2.slotCount, b.slotAt ⟨b.active, e.1⟩ i = f (a.slotAt ⟨a.active, o⟩ i) := by
  obtain ⟨w, hw, hfw⟩ := C.bijective.surjOn ⟨e, he, rfl⟩
  obtain ⟨o, o', h, x, he', hf, _, hslot⟩ := C.object w hw
  have hee : (o', h) = e := C.tiled.address_inj C.top_le he' he (hf.symm.trans hfw)
  subst hee
  exact ⟨w, o, hw, x, hf, hslot⟩

theorem Copied.normal (C : Copied a b top top' roots f rs) : b.Normal rs top' := by
  refine ⟨C.tiled, C.top_le, ?_⟩
  intro e he i hi
  obtain ⟨w, o, hw, x, _, hslot⟩ := C.exists_source he
  rw [hslot i hi]
  by_cases hz : a.slotAt ⟨a.active, o⟩ i = 0
  · exact Or.inl (by rw [hz, C.zero])
  · exact Or.inr (C.bijective.mapsTo (.slot hw x.located x.header hi hz))

end

/-! ## What a collection that answers has done -/

/-- The pass `p` of a collection that answers: it has moved `ms`, in breadth-first order, and what it
left is the heap. -/
structure Collected (s : Session) (n : Nat) (x : CycleSummary) (s' : Session) (ms : List Moved) (p : Pass) : Prop where
  live : n ≤ s.collector.roots.top
  invariant : Pass.Invariant s.collector.arena s.collector.cursor.top (s.collector.roots.bottom n) ms p.cursor.top p
  moved : ∀ r ∈ s.collector.roots.bottom n, ∃ m ∈ ms, m.old = r.addr
  order : s.collector.arena.MeetsAll (s.collector.roots.bottom n) (ms.map Moved.old)
  copied : Copied s.collector.arena s'.collector.arena s.collector.cursor.top s'.collector.cursor.top
    (s.collector.roots.bottom n) (newAddress s.collector.arena ms) (ms.map Moved.block)
  arena : s'.collector.arena = p.arena.swap
  wellFormed : s'.collector.WellFormed
  top : s'.collector.cursor.top = p.cursor.top
  roots : (s'.collector.roots.bottom n).map Ref.addr =
    ((s.collector.roots.bottom n).map Ref.addr).map (newAddress s.collector.arena ms)
  stack : s'.collector.roots.top = s.collector.roots.top
  phase : s'.collector.phase = .idle
  objects : x.objectsCopied = ms.length
  before : x.wordsBefore = s.collector.cursor.top
  after : x.wordsAfter = p.cursor.top
  copies : s'.journal.copies = s.journal.copies ++ p.copier.copies.toList

theorem Mutator.collected {s s' : Session} {n : Nat} {x : CycleSummary} (hw : s.collector.WellFormed)
    (h : (collect n).run s = .ok x s') : ∃ ms p, Collected s n x s' ms p := by
  obtain ⟨hn, p, hp, hs, rfl⟩ := collect_ok h
  obtain ⟨hw', htop, ms, I, hr, hmet, C, hroots⟩ := hs.copied_in_order hw hp
  have hbottom : (s.collector.roots.bottom n).length = n := by
    rw [RootStack.bottom, List.length_take]
    exact Nat.min_eq_left hn
  have hlen : ((s.collector.roots.bottom n).map fun r => newAddress s.collector.arena ms r.addr).length = n := by
    rw [List.length_map, hbottom]
  rw [Collector.length_relocateLive, hbottom] at hroots
  refine ⟨ms, p, hn, I, hr, hmet, C, hs.arena, hw', htop, ?roots, ?stack, hs.phase, I.copies, rfl, rfl, hs.copies⟩
  case roots =>
    rw [RootStack.bottom, List.map_take, hroots, List.take_append_of_le_length (Nat.le_of_eq hlen.symm),
      List.take_of_length_le (Nat.le_of_eq hlen), List.map_map]
    rfl
  case stack =>
    have hlength := congrArg List.length hroots
    rw [List.length_append, hlen, List.length_map, List.length_map, List.length_drop] at hlength
    have hle : n ≤ s.collector.roots.toList.length := hn
    exact hlength.trans (Nat.add_sub_of_le hle)

/-! ## The heap it leaves -/

/-- A half that serves allocations can be accessed up to its end. -/
theorem Arena.checkRange_active (a : Arena) {o k : Nat} (h : o + k ≤ a.spaceWords) :
    a.checkRange ⟨a.active, o⟩ k = .ok () :=
  Arena.checkRange_of_ok h a.isOpen_active

/-- Exchanging the halves leaves no access to the vacated one. -/
theorem Arena.checkRange_vacated (a : Arena) (o k : Nat) : a.swap.checkRange ⟨a.active, o⟩ k ≠ .ok () := by
  intro h
  have hopen := (Arena.checkRange_eq_ok_iff.mp h).2
  have hne : a.active ≠ a.inactive := Half.ne_other _
  simp [Arena.isOpen, Arena.isClosed, Arena.swap, hne] at hopen

/-- The notice of every copy tells where the record lies and what was copied there. -/
theorem Pass.Invariant.copies_eq {a b : Arena} {top σ : Nat} {roots : List Ref} {ms : List Moved} {p : Pass}
    (I : Pass.Invariant a top roots ms σ p) (hl : b.layout = a.layout) (ha : b.active = a.inactive) :
    p.copier.copies.toList = List.zipWith (fun w e => ⟨e.2.tag, e.2.size, w, b.address ⟨b.active, e.1⟩⟩)
      (ms.map Moved.old) (ms.map Moved.block) := by
  rw [I.noted, List.zipWith_map, List.zipWith_self]
  unfold Arena.address
  rw [hl, ha]
  rfl

/-- A collection that answers makes the heap normal, whatever words it held: the active half consists
of the records copied, in the order of the copies, their slots and the live roots refer to such
records, the cursor stands after the last of them, and only the active half can be accessed. -/
theorem collect_normalises {s s' : Session} {n : Nat} {summary : CycleSummary} (hw : s.collector.WellFormed)
    (h : (Mutator.collect n).run s = .ok summary s') :
    let a := s.collector.arena
    let b := s'.collector.arena
    ∃ (rs : List (Nat × Header)) (ws : List Word),
      b.Normal rs s'.collector.cursor.top ∧
      ws.length = rs.length ∧ ws.Nodup ∧ (∀ w, w ∈ ws ↔ a.Reach (s.collector.roots.bottom n) w) ∧
      s'.journal.copies = s.journal.copies ++
        List.zipWith (fun w e => ⟨e.2.tag, e.2.size, w, b.address ⟨b.active, e.1⟩⟩) ws rs ∧
      s'.collector.roots.top = s.collector.roots.top ∧ n ≤ s.collector.roots.top ∧
      (∀ r ∈ s'.collector.roots.bottom n, b.Starts rs r.addr) ∧
      summary.wordsAfter ≤ s.collector.cursor.capacity ∧ s'.collector.cursor.top = summary.wordsAfter ∧
      b.spaceWords = a.spaceWords ∧ b.active = a.inactive ∧
      (∀ o k, o + k ≤ b.spaceWords → b.checkRange ⟨b.active, o⟩ k = .ok ()) ∧
      (∀ o k, b.checkRange ⟨a.active, o⟩ k ≠ .ok ()) ∧
      s'.collector.phase = .idle := by
  intro a b
  obtain ⟨ms, p, X⟩ := Mutator.collected hw h
  have C := X.copied
  refine ⟨ms.map Moved.block, ms.map Moved.old, C.normal, by simp, X.invariant.nodup, ?reached, ?copies, X.stack, X.live,
    ?roots, ?room, X.top.trans X.after.symm, congrArg Layout.spaceWords C.layout, C.active,
    fun o k => b.checkRange_active, ?vacated, X.phase⟩
  case reached =>
    intro w
    rw [List.mem_map]
    exact (X.invariant.reach_iff X.moved).symm
  case copies => rw [X.copies, X.invariant.copies_eq C.layout C.active]
  case roots =>
    intro r hmem
    have hin := List.mem_map_of_mem (f := Ref.addr) hmem
    rw [X.roots] at hin
    obtain ⟨w, hw, he⟩ := List.mem_map.mp hin
    obtain ⟨r', hr', rfl⟩ := List.mem_map.mp hw
    rw [← he]
    exact C.bijective.mapsTo (.root hr')
  case room =>
    rw [X.after, hw]
    exact X.invariant.top_le
  case vacated =>
    intro o k
    have hb : b = p.arena.swap := X.arena
    rw [hb, ← X.invariant.active]
    exact p.arena.checkRange_vacated o k

/-- Makes two integers roots, and between them the object that starts at the value of the first: that
is zero, the tag of an integer. -/
def Mutator.overlap : Mutator Unit := do
  let i ← allocInt 0
  let j ← allocInt 7
  rootPush i
  match Ref.ofWord? (i.addr + 8) with
  | none => pure ()
  | some r => rootPush r
  rootPush j

def Session.overlapped : Session := endState (Mutator.overlap.run .small)

/-- Three objects that share words leave the pass as three records of their own. -/
theorem collect_normalises_overlapped : ∃ summary s', (Mutator.collect 3).run .overlapped = .ok summary s' ∧
    Session.overlapped.collector.WellFormed ∧ summary.wordsBefore = 4 ∧ summary.wordsAfter = 6 ∧
    ∃ rs, s'.collector.arena.Normal rs 6 ∧ ∀ r ∈ s'.collector.roots.toList, s'.collector.arena.Starts rs r.addr := by
  have hw : Session.overlapped.collector.WellFormed := by unfold Collector.WellFormed; decide +kernel
  obtain ⟨summary, s', h⟩ := exists_of_isSome (r := (Mutator.collect 3).run .overlapped) (by decide +kernel)
  have hwords : (answer ((Mutator.collect 3).run .overlapped)).toOption.map (fun x => (x.wordsBefore, x.wordsAfter)) =
      some (4, 6) := by decide +kernel
  have htop : Session.overlapped.collector.roots.top = 3 := by decide +kernel
  rw [h] at hwords
  obtain ⟨hbefore, hafter⟩ := Prod.mk.inj (Option.some.inj hwords)
  obtain ⟨rs, _, hnormal, _, _, _, _, hstack, _, hroots, _, hcursor, _⟩ := collect_normalises hw h
  rw [hcursor, hafter] at hnormal
  have hbottom : s'.collector.roots.bottom 3 = s'.collector.roots.toList := by
    rw [← htop, ← hstack, RootStack.bottom_top]
  exact ⟨summary, s', h, hw, hbefore, hafter, rs, hnormal, hbottom ▸ hroots⟩

end Semispace

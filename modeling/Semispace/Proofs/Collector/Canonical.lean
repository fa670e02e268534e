import Semispace.Proofs.Collector.Normal
import Semispace.Proofs.Collector.Passes
import Semispace.Proofs.Relocation.Isomorphism

/-!
# The layout after a collection

Where a collection puts its copies depends on nothing but the graph that the live roots reach. Two
collectors with isomorphic graphs are laid out alike afterwards, offset by offset, and a collection of
a heap that has just been collected changes nothing but the half.
-/

namespace Semispace

namespace Arena

/-- The offset in the active half that a word refers to. -/
def offset? (a : Arena) (w : Word) : Option Nat :=
  (a.locate w).bind fun loc => if loc.half = a.active then some loc.offset else none

theorem offset?_zero (a : Arena) : a.offset? 0 = none := by
  have h : a.locate 0 = none := by
    rw [Option.eq_none_iff_forall_ne_some]
    intro loc hl
    obtain ⟨ho, hw⟩ := Layout.locate_eq_some_iff.mp hl
    exact a.layout.address_ne_zero ho hw.symm
  simp [offset?, h]

theorem offset?_address (a : Arena) {o : Nat} (h : o < a.spaceWords) : a.offset? (a.address ⟨a.active, o⟩) = some o := by
  have hl : a.locate (a.address ⟨a.active, o⟩) = some ⟨a.active, o⟩ := a.layout.locate_address h
  simp [offset?, hl]

/-- The words of a record, references read as offsets. -/
def relative (a : Arena) (e : Nat × Header) : Word × Word × List (Option Nat) :=
  (a.word ⟨a.active, e.1⟩, a.word ⟨a.active, e.1 + 1⟩,
    (List.range e.2.slotCount).map fun i => a.offset? (a.slotAt ⟨a.active, e.1⟩ i))

/-- Records of the same headers at the same offsets read alike when their slots do. -/
theorem relative_congr {a b : Arena} {rs : List (Nat × Header)} {top top' : Nat} (ha : a.Tiled rs top)
    (hb : b.Tiled rs top') (h : ∀ e ∈ rs, ∀ i < e.2.slotCount,
      a.offset? (a.slotAt ⟨a.active, e.1⟩ i) = b.offset? (b.slotAt ⟨b.active, e.1⟩ i)) :
    rs.map a.relative = rs.map b.relative := by
  refine List.map_congr_left fun e he => ?_
  obtain ⟨h0, h1⟩ := headerAt_eq_some_iff.mp (ha.header e he)
  obtain ⟨h0', h1'⟩ := headerAt_eq_some_iff.mp (hb.header e he)
  refine Prod.ext (h0.trans h0'.symm) (Prod.ext (h1.trans h1'.symm) ?_)
  exact List.map_congr_left fun i hi => h e he i (List.mem_range.mp hi)

end Arena

/-- The collector as two collections left it, the first with the answer `x` and the second with `y`,
is laid out alike: the records `rs` lie at the same offsets, and references have the same offsets. -/
structure LaidOutAlike (n : Nat) (rs : List (Nat × Header)) (x y : CycleSummary) (c d : Collector) : Prop where
  objects : x.objectsCopied = y.objectsCopied
  cursor : c.cursor.top = d.cursor.top
  roots : ((c.roots.bottom n).map Ref.addr).map c.arena.offset? = ((d.roots.bottom n).map Ref.addr).map d.arena.offset?
  first : c.arena.Normal rs c.cursor.top
  second : d.arena.Normal rs d.cursor.top
  words : rs.map c.arena.relative = rs.map d.arena.relative

section
variable {a b a' b' : Arena} {top top' : Nat} {roots roots' : List Ref} {f : Word → Word} {ms ms' : List Moved}

/-- Corresponding words are forwarded to the same offset. -/
theorem Isomorphism.offset?_newAddress {σ σ' : Nat} {p q : Pass} (iso : Isomorphism a b top top' roots roots' f)
    (I : Pass.Invariant a top roots ms σ p) (J : Pass.Invariant b top' roots' ms' σ' q)
    (hm : List.Forall₂ (Moved.Matches f) ms ms') (ha : a'.layout = a.layout) (ha' : a'.active = a.inactive)
    (hb : b'.layout = b.layout) (hb' : b'.active = b.inactive) {w : Word} (hw : w = 0 ∨ ∃ m ∈ ms, m.old = w) :
    a'.offset? (newAddress a ms w) = b'.offset? (newAddress b ms' (f w)) := by
  rcases hw with rfl | ⟨m, hmem, rfl⟩
  · rw [iso.zero, I.newAddress_zero, J.newAddress_zero, Arena.offset?_zero, Arena.offset?_zero]
  · obtain ⟨m', hmem', hx⟩ := Moved.exists_match hm hmem
    have h1 : newAddress a ms m.old = a'.address ⟨a'.active, m.target⟩ := by
      rw [I.newAddress_old hmem, ha']
      unfold Arena.address
      rw [ha]
    have h2 : newAddress b ms' (f m.old) = b'.address ⟨b'.active, m.target⟩ := by
      rw [← hx.old, J.newAddress_old hmem', hb', hx.target]
      unfold Arena.address
      rw [hb]
    have hlt : m.target < a'.spaceWords := by
      unfold Arena.spaceWords
      rw [ha]
      exact I.target_lt hmem
    have hlt' : m.target < b'.spaceWords := by
      unfold Arena.spaceWords
      rw [hb, ← hx.target]
      exact J.target_lt hmem'
    rw [h1, h2, a'.offset?_address hlt, b'.offset?_address hlt']

end

section
variable {s s' t t' : Session} {n : Nat} {x y : CycleSummary} {ms ms' : List Moved} {p q : Pass} {f : Word → Word}

/-- A collection answers when its pass completes. -/
theorem Mutator.exists_collect_iff (hp : s.collector.phase ≠ .poisoned) :
    (∃ x s', (collect n).run s = .ok x s') ↔
      n ≤ s.collector.roots.top ∧ Fits s.collector.arena s.collector.cursor.top (s.collector.roots.bottom n) := by
  constructor
  · intro hex
    obtain ⟨x, s', h⟩ := hex
    obtain ⟨hn, p, hr, _⟩ := collect_ok h
    exact ⟨hn, Collector.relocateLive_ok_iff.mp ⟨p, hr⟩⟩
  · intro hfits
    obtain ⟨p, hr⟩ := Collector.relocateLive_ok_iff.mpr hfits.2
    obtain ⟨s', hrun, _⟩ := run_runCycle_ok .explicit hr
    exact ⟨_, s', (run_collect hp hfits.1).trans hrun⟩

/-- As many roots are live on both sides. -/
theorem Isomorphism.live_le (iso : Isomorphism s.collector.arena t.collector.arena s.collector.cursor.top
      t.collector.cursor.top (s.collector.roots.bottom n) (t.collector.roots.bottom n) f) :
    n ≤ s.collector.roots.top ↔ n ≤ t.collector.roots.top := by
  have h := congrArg List.length iso.rooted
  have hs : s.collector.roots.toList.length = s.collector.roots.top := rfl
  have ht : t.collector.roots.toList.length = t.collector.roots.top := rfl
  simp only [List.length_map, RootStack.bottom, List.length_take, hs, ht] at h
  omega

theorem Collected.laidOutAlike (X : Collected s n x s' ms p) (Y : Collected t n y t' ms' q)
    (iso : Isomorphism s.collector.arena t.collector.arena s.collector.cursor.top t.collector.cursor.top
      (s.collector.roots.bottom n) (t.collector.roots.bottom n) f) :
    LaidOutAlike n (ms.map Moved.block) x y s'.collector t'.collector := by
  obtain ⟨hm, htop⟩ := iso.matches X.invariant Y.invariant X.order Y.order
  have hblocks := Moved.blocks_eq hm
  have hoffset : ∀ w, w = 0 ∨ s.collector.arena.Reach (s.collector.roots.bottom n) w →
      s'.collector.arena.offset? (newAddress s.collector.arena ms w) =
        t'.collector.arena.offset? (newAddress t.collector.arena ms' (f w)) := by
    intro w hw
    refine iso.offset?_newAddress X.invariant Y.invariant hm X.copied.layout X.copied.active Y.copied.layout
      Y.copied.active (hw.imp id fun hr => ?_)
    exact (X.invariant.reach_iff X.moved).mp hr
  have C := X.copied
  have D := hblocks ▸ Y.copied
  refine ⟨?objects, X.top.trans (htop.symm.trans Y.top.symm), ?roots, C.normal, D.normal,
    Arena.relative_congr C.tiled D.tiled ?slots⟩
  case objects => rw [X.objects, Y.objects, hm.length_eq]
  case roots =>
    rw [X.roots, Y.roots, iso.rooted]
    simp only [List.map_map]
    exact List.map_congr_left fun r hr => hoffset r.addr (Or.inr (.root hr))
  case slots =>
    intro e he i hi
    -- the record is the copy of `w` here, and of `f w` there
    obtain ⟨w, o, hw, hx, hf, hslot⟩ := C.exists_source he
    obtain ⟨o₁, o', h, hx', hy, hcorr⟩ := iso.object w hw
    obtain ⟨rfl, rfl⟩ := hx.unique hx'
    obtain ⟨o₂, o₃, h', hy', he', hf', _, hslot'⟩ := D.object (f w) (iso.reach hw)
    obtain ⟨rfl, rfl⟩ := hy.unique hy'
    have hlt := C.tiled.offset_lt C.top_le he
    have hlt' := D.tiled.offset_lt D.top_le he'
    have hoff := hoffset w (Or.inr hw)
    rw [hf, hf', Arena.offset?_address _ hlt, Arena.offset?_address _ hlt'] at hoff
    obtain rfl : e.1 = o₃ := Option.some.inj hoff
    rw [hslot i hi, hslot' i hi, hcorr i hi]
    refine hoffset _ ?_
    by_cases hz : s.collector.arena.slotAt ⟨s.collector.arena.active, o⟩ i = 0
    · exact Or.inl hz
    · exact Or.inr (.slot hw hx.located hx.header hi hz)

/-- What a second collection copies lies where the first has put it. -/
theorem Collected.copies_again (X : Collected s n x s' ms p) (Y : Collected s' n y t' ms' q) :
    t'.journal.copies = s'.journal.copies ++ (ms.map Moved.block).map fun e => ⟨e.2.tag, e.2.size,
      s'.collector.arena.address ⟨s'.collector.arena.active, e.1⟩,
      t'.collector.arena.address ⟨t'.collector.arena.active, e.1⟩⟩ := by
  have iso := X.copied.isomorphism X.roots
  obtain ⟨hm, _⟩ := iso.matches X.invariant Y.invariant X.order Y.order
  have hold : ms'.map Moved.old =
      (ms.map Moved.block).map fun e => s'.collector.arena.address ⟨s'.collector.arena.active, e.1⟩ := by
    rw [Y.order.unique (iso.meetsAll X.order), List.map_map, List.map_map]
    refine List.map_congr_left fun m hmem => (X.invariant.newAddress_old hmem).trans ?_
    unfold Arena.address
    rw [← X.copied.layout, ← X.copied.active]
    rfl
  rw [Y.copies, Y.invariant.copies_eq Y.copied.layout Y.copied.active, hold, Moved.blocks_eq hm, List.zipWith_map_left,
    List.zipWith_self]

end

/-- The layout is canonical. Collections of collectors with halves of one size and isomorphic live
graphs both answer or both fail, and lay the heap out alike: as many objects, the cursor and the roots
at the same offsets, and the words in use the same with references read as offsets. A second collection
over the same roots answers, copies every object to the offset at which it is, and frees nothing. -/
theorem collect_canonical {s : Session} {n : Nat} (hw : s.collector.WellFormed) :
    (∀ (t : Session) (f : Word → Word), t.collector.WellFormed →
      s.collector.phase ≠ .poisoned → t.collector.phase ≠ .poisoned →
      t.collector.arena.spaceWords = s.collector.arena.spaceWords →
      Isomorphism s.collector.arena t.collector.arena s.collector.cursor.top t.collector.cursor.top
        (s.collector.roots.bottom n) (t.collector.roots.bottom n) f →
      ((∃ x s', (Mutator.collect n).run s = .ok x s') ↔ ∃ y t', (Mutator.collect n).run t = .ok y t') ∧
      ∀ x s' y t', (Mutator.collect n).run s = .ok x s' → (Mutator.collect n).run t = .ok y t' →
        ∃ rs, LaidOutAlike n rs x y s'.collector t'.collector) ∧
    ∀ x s', (Mutator.collect n).run s = .ok x s' →
      ∃ rs y s'', (Mutator.collect n).run s' = .ok y s'' ∧ LaidOutAlike n rs x y s'.collector s''.collector ∧
        y.wordsAfter = y.wordsBefore ∧ y.wordsReclaimed = 0 ∧
        s''.journal.copies = s'.journal.copies ++ rs.map fun e => ⟨e.2.tag, e.2.size,
          s'.collector.arena.address ⟨s'.collector.arena.active, e.1⟩,
          s''.collector.arena.address ⟨s''.collector.arena.active, e.1⟩⟩ := by
  constructor
  · intro t f ht hp hq hspace iso
    refine ⟨?_, fun x s' y t' hs' ht' => ?_⟩
    · rw [Mutator.exists_collect_iff hp, Mutator.exists_collect_iff hq, iso.live_le, iso.fits_iff hspace]
    · obtain ⟨ms, p, X⟩ := Mutator.collected hw hs'
      obtain ⟨ms', q, Y⟩ := Mutator.collected ht ht'
      exact ⟨_, X.laidOutAlike Y iso⟩
  · intro x s' hs'
    obtain ⟨ms, p, X⟩ := Mutator.collected hw hs'
    have iso := X.copied.isomorphism X.roots
    have hidle : s'.collector.phase ≠ .poisoned := by rw [X.phase]; nofun
    have hspace : s'.collector.arena.spaceWords = s.collector.arena.spaceWords := congrArg Layout.spaceWords X.copied.layout
    have hfits := (iso.fits_iff hspace).mp (X.invariant.fits X.moved)
    obtain ⟨y, s'', hs''⟩ := (Mutator.exists_collect_iff hidle).mpr ⟨X.stack ▸ X.live, hfits⟩
    obtain ⟨ms', q, Y⟩ := Mutator.collected X.wellFormed hs''
    have hlaid := X.laidOutAlike Y iso
    have hsame : y.wordsAfter = y.wordsBefore := by
      rw [Y.after, Y.before, ← Y.top, hlaid.cursor]
    refine ⟨_, y, s'', hs'', hlaid, hsame, ?_, X.copies_again Y⟩
    unfold CycleSummary.wordsReclaimed
    rw [hsame, Nat.sub_self]

/-! ## A vector that refers to itself -/

/-- Makes a vector that refers to itself the only root. -/
def Mutator.tie : Mutator Unit := do
  let v ← allocVector [none]
  vectorSet v 0 (some v)
  rootPush v

def Session.tied : Session := endState (Mutator.tie.run .small)

/-- The same vector in the other half, after an integer that nothing refers to. -/
def Session.tiedElsewhere : Session :=
  endState ((do let _ ← Mutator.collect 0; let _ ← Mutator.allocInt 7; Mutator.tie : Mutator Unit).run .small)

theorem isomorphism_tied : ∃ f, Isomorphism Session.tied.collector.arena Session.tiedElsewhere.collector.arena
    Session.tied.collector.cursor.top Session.tiedElsewhere.collector.cursor.top
    (Session.tied.collector.roots.bottom 1) (Session.tiedElsewhere.collector.roots.bottom 1) f := by
  have hknot : ∃ r, Session.tied.collector.roots.bottom 1 = [r] ∧
      Session.tied.collector.arena.locate r.addr = some ⟨Session.tied.collector.arena.active, 0⟩ ∧
      Session.tied.collector.arena.slotAt ⟨Session.tied.collector.arena.active, 0⟩ 0 = r.addr :=
    ⟨(Session.tied.collector.roots.bottom 1).head (by decide +kernel), by decide +kernel⟩
  have hknot' : ∃ r, Session.tiedElsewhere.collector.roots.bottom 1 = [r] ∧
      Session.tiedElsewhere.collector.arena.locate r.addr =
        some ⟨Session.tiedElsewhere.collector.arena.active, 2⟩ ∧
      Session.tiedElsewhere.collector.arena.slotAt ⟨Session.tiedElsewhere.collector.arena.active, 2⟩ 0 = r.addr :=
    ⟨(Session.tiedElsewhere.collector.roots.bottom 1).head (by decide +kernel), by decide +kernel⟩
  obtain ⟨r, hr, hl, hs⟩ := hknot
  obtain ⟨r', hr', hl', hs'⟩ := hknot'
  have x : Session.tied.collector.arena.ObjectAt Session.tied.collector.cursor.top r.addr 0 ⟨.vector, 1⟩ :=
    ⟨hl, by decide +kernel, by decide +kernel, by decide +kernel⟩
  have y : Session.tiedElsewhere.collector.arena.ObjectAt Session.tiedElsewhere.collector.cursor.top r'.addr 2
      ⟨.vector, 1⟩ := ⟨hl', by decide +kernel, by decide +kernel, by decide +kernel⟩
  have hone : ∀ w, Session.tied.collector.arena.Reach [r] w → w = r.addr := by
    intro w hw
    induction hw with
    | root hmem => rw [List.mem_singleton.mp hmem]
    | slot _ hlw hh hi _ ih =>
      subst ih
      obtain ⟨rfl, rfl⟩ := x.agree hlw hh
      obtain rfl := Nat.lt_one_iff.mp hi
      exact hs
  refine ⟨fun w => if w = 0 then 0 else r'.addr, ?_⟩
  rw [hr, hr']
  refine ⟨?_, rfl, fun w hw v hv _ => (hone w hw).trans (hone v hv).symm, fun w hw => ?_⟩
  · simp [r.ne_zero]
  · obtain rfl := hone w hw
    refine ⟨0, 2, _, x, by rw [if_neg r.ne_zero]; exact y, fun i hi => ?_⟩
    obtain rfl := Nat.lt_one_iff.mp hi
    rw [hs, hs', if_neg r.ne_zero]

theorem collect_canonical_tied : Session.tied.collector.arena.active = .low ∧
    Session.tiedElsewhere.collector.arena.active = .high ∧
    Session.tied.collector.cursor.top = 3 ∧ Session.tiedElsewhere.collector.cursor.top = 5 ∧
    ∃ x s' y t' z s'' rs, (Mutator.collect 1).run .tied = .ok x s' ∧ (Mutator.collect 1).run .tiedElsewhere = .ok y t' ∧
      (Mutator.collect 1).run s' = .ok z s'' ∧ LaidOutAlike 1 rs x y s'.collector t'.collector ∧ z.wordsReclaimed = 0 := by
  have hw : Session.tied.collector.WellFormed := by unfold Collector.WellFormed; decide +kernel
  obtain ⟨x, s', hs⟩ := exists_of_isSome (r := (Mutator.collect 1).run .tied) (by decide +kernel)
  obtain ⟨f, iso⟩ := isomorphism_tied
  obtain ⟨hfirst, hagain⟩ := collect_canonical (n := 1) hw
  obtain ⟨hiff, halike⟩ := hfirst .tiedElsewhere f (by unfold Collector.WellFormed; decide +kernel) (by decide +kernel)
    (by decide +kernel) (by decide +kernel) iso
  obtain ⟨y, t', ht⟩ := hiff.mp ⟨x, s', hs⟩
  obtain ⟨rs, hrs⟩ := halike x s' y t' hs ht
  obtain ⟨_, z, s'', hz, _, _, hzero, _⟩ := hagain x s' hs
  exact ⟨by decide +kernel, by decide +kernel, by decide +kernel, by decide +kernel, x, s', y, t', z, s'', rs, hs, ht, hz,
    hrs, hzero⟩

end Semispace

import Semispace.Proofs.Relocation.Turns

/-!
# Every slot once

The words that a completed pass gives to `relocate` are the roots and then the words in the slots of the
objects, in the order in which these were entered in the table, each as it stood before the pass: the
scan overwrites a slot only after it was read. So no address that the pass answers with is ever given
to it again (`relocated_once`).
-/

namespace Semispace

/-- Where the slots of a copy are. -/
def Copy.slots (a : Arena) (k : Copy) : List Location :=
  match a.locate k.target with
  | none => []
  | some loc => (List.range (k.words - headerWords)).map fun i => loc.add (headerWords + i)

/-- The slots of the copy of an object, with the words that the object has in its own. -/
def Moved.entries (a : Arena) (m : Moved) : List (Location × Option Word) :=
  (List.range' headerWords m.header.slotCount).map fun j =>
    (⟨a.inactive, m.target + j⟩, some (a.word ⟨a.active, m.source + j⟩))

theorem Moved.mem_entries {a : Arena} {m : Moved} {loc : Location} (h : loc ∈ (m.entries a).map Prod.fst) :
    ∃ j < m.header.size, loc = ⟨a.inactive, m.target + j⟩ := by
  rw [Moved.entries, List.map_map] at h
  obtain ⟨j, hj, rfl⟩ := List.mem_map.mp h
  have hj : j < headerWords + m.header.slotCount := (List.mem_range'_1.mp hj).2
  exact ⟨j, m.header.size_eq ▸ hj, rfl⟩

namespace Pass

/-- The words that relocating roots gives to `relocate`. -/
def rootsGiven : List Ref → Pass → List Word
  | [], _ => []
  | r :: rs, p =>
    r.addr :: match (relocate r.addr).run p with
      | .error _ _ => []
      | .ok w p' => if (Ref.ofWord? w).isSome then rootsGiven rs p' else []

/-- The word that a turn reads in its slot and gives to `relocate`, if it can. -/
def Turn.given (t : Turn) : Option Word := (t.pass.arena.read t.slot).toOption

def Turn.entry (t : Turn) : Location × Option Word := (t.slot, t.given)

theorem Turn.Permitted.given {t : Turn} {w : Word} (h : t.Permitted w) : t.given = some w := by
  rw [Turn.given, h.read]
  rfl

theorem rootsGiven_eq : ∀ {rs : List Ref} {p p' : Pass}, (relocateRoots rs p).2 = .ok () p' →
    rootsGiven rs p = rs.map Ref.addr
  | [], _, _, _ => rfl
  | r :: rs, p, p', h => by
    rw [rootsGiven, List.map_cons]
    cases hrel : (relocate r.addr).run p with
    | error e q =>
      rw [relocateRoots_cons_error rs hrel] at h
      cases h
    | ok w q =>
      cases hw : Ref.ofWord? w with
      | none =>
        rw [relocateRoots_cons_null rs hrel hw] at h
        cases h
      | some new =>
        rw [relocateRoots_cons_ok rs hrel hw] at h
        simp only [hw, Option.isSome_some, if_true, rootsGiven_eq h]

variable {a : Arena} {top σ : Nat} {roots : List Ref} {ms : List Moved} {p p' : Pass}

namespace Invariant

/-- The turns of a moved object, from its slot at the scan pointer on, when all of them go well. -/
theorem map_entry_slots : ∀ {n j σ : Nat} {ms : List Moved} {p : Pass} {m : Moved}, Invariant a top roots ms σ p →
    m ∈ ms → m.target + j = σ → j + n = m.header.size → headerWords ≤ j →
    ∀ {u p'}, (Pass.relocateSlots ⟨a.inactive, σ⟩ n).run p = .ok u p' →
    (Pass.turns ⟨a.inactive, σ⟩ n p).map Turn.entry = (List.range' j n).map fun i =>
      (⟨a.inactive, m.target + i⟩, some (a.word ⟨a.active, m.source + i⟩))
  | 0, _, _, _, _, _, _, _, _, _, _, _, _, _ => rfl
  | n + 1, j, σ, ms, p, m, I, hm, hσ, hj, hj2, _, _, hok => by
    have hgiven := (I.permitted hm hσ (by omega) hj2).given
    have hout := I.relocateSlot hm hσ (by omega) hj2
    cases hr : (Pass.relocateSlot ⟨a.inactive, σ⟩).run p with
    | error e p' =>
      rw [run_relocateSlots_error hr] at hok
      cases hok
    | ok u p' =>
      rw [hr] at hout
      rw [run_relocateSlots_next hr] at hok
      cases hout with
      | ok hs I' hq =>
        obtain ⟨rfl, _⟩ := hq
        have hrest := map_entry_slots (n := n) (j := j + 1) (σ := σ + 1) I' (hs.subset hm) (by omega) (by omega)
          (by omega) hok
        rw [turns_next hr, List.map_cons, List.range'_succ, List.map_cons, hσ]
        exact congrArg₂ List.cons (Prod.ext rfl hgiven) hrest

theorem map_entry_round (I : Invariant a top roots ms σ p) {m : Moved} (hm : m ∈ ms) (hσ : m.target = σ)
    {n : Nat} (hr : (Pass.scanObject σ).run p = .ok n p') : (Round.turns ⟨σ, p⟩).map Turn.entry = m.entries a := by
  obtain ⟨hturns, hending⟩ := I.turns_round hm hσ
  rw [hr] at hending
  rw [hturns]
  exact (I.skip_header hm hσ).map_entry_slots (j := headerWords) hm (by omega) m.header.size_eq.symm (Nat.le_refl _)
    hending.symm

/-- A completed scan takes the slots of the copies from the pointer on, and of those that it makes. -/
theorem map_entry_scan {rest : List Moved} (I : Invariant a top roots ms σ p) (hb : Boundary ms rest σ)
    (h : Pass.scanFrom σ p = .ok () p') : ∃ more, Invariant a top roots (ms ++ more) p'.cursor.top p' ∧
      ((roundsFrom σ p).flatMap Round.turns).map Turn.entry = (rest ++ more).flatMap (Moved.entries a) := by
  refine scan_induct (C := fun σ p ms rest => Pass.scanFrom σ p = .ok () p' →
    ∃ more, Invariant a top roots (ms ++ more) p'.cursor.top p' ∧
      ((roundsFrom σ p).flatMap Round.turns).map Turn.entry = (rest ++ more).flatMap (Moved.entries a))
    ?done ?failed ?next σ p I hb h
  case done =>
    intro ms p I h
    rw [scanFrom_done (Nat.le_refl _)] at h
    cases h
    refine ⟨[], (List.append_nil ms).symm ▸ I, ?_⟩
    rw [roundsFrom_done (Nat.le_refl _)]
    rfl
  case failed =>
    intro ms rest m σ p e q _ _ _ hlt hr h
    rw [scanFrom_error hlt hr] at h
    cases h
  case next =>
    intro ms rest m σ p more q I hm hσ hlt hr _ _ ih h
    rw [scanFrom_next hlt hr] at h
    obtain ⟨more', I', hrest⟩ := ih h
    refine ⟨more ++ more', List.append_assoc .. ▸ I', ?_⟩
    rw [roundsFrom_next hlt hr, List.flatMap_cons, List.map_append, I.map_entry_round hm hσ hr, hrest,
      List.cons_append, List.flatMap_cons, List.append_assoc]

/-! ## What a completed pass gave -/

section
variable (I : Invariant a top roots ms σ p)
include I

theorem entered_eq : p.table.toList.map Prod.fst = ms.map Moved.old := by
  simp [I.table, Function.comp_def]

/-- No word that is forwarded is the address of a copy. -/
theorem not_mem_new {w : Word} (hw : w = 0 ∨ ∃ m ∈ ms, m.old = w) : w ∉ p.table.toList.map Prod.snd := by
  intro hnew
  rw [I.table, List.map_map] at hnew
  obtain ⟨m, hm, he⟩ := List.mem_map.mp hnew
  have he : a.address ⟨a.inactive, m.target⟩ = w := he
  have hlt := I.target_lt hm
  rcases hw with rfl | ⟨m', hm', rfl⟩
  · exact a.layout.address_ne_zero hlt he
  · have hl := (I.objects m' hm').located
    rw [← he, show a.locate (a.address ⟨a.inactive, m.target⟩) = _ from a.layout.locate_address hlt] at hl
    simp only [Option.some.injEq, Location.mk.injEq] at hl
    exact Half.ne_other _ hl.1.symm

theorem map_snd_entries {m : Moved} (hm : m ∈ ms) : (m.entries a).map Prod.snd = (a.slotsOf m.old).map some := by
  rw [(I.objects m hm).slotsOf, Moved.entries, List.range'_eq_map_range, List.map_map, List.map_map, List.map_map]
  rfl

theorem map_fst_entries {m : Moved} (hm : m ∈ ms) : (m.entries a).map Prod.fst = (m.copy a).slots a := by
  have hl : a.locate (a.address ⟨a.inactive, m.target⟩) = some ⟨a.inactive, m.target⟩ :=
    a.layout.locate_address (I.target_lt hm)
  have hn : m.header.size - headerWords = m.header.slotCount := by
    have := m.header.size_eq
    omega
  rw [Moved.entries, List.range'_eq_map_range, List.map_map, List.map_map]
  simp only [Copy.slots, Moved.copy, hl, hn]
  rfl

theorem nodup_entries : ((ms.flatMap (Moved.entries a)).map Prod.fst).Nodup := by
  rw [List.map_flatMap, List.nodup_flatMap]
  refine ⟨fun m hm => ?_, (I.nodup.of_map _).pairwise_of_forall_ne fun m hm m' hm' hne loc h h' => ?_⟩
  · rw [Moved.entries, List.map_map]
    exact List.Nodup.map (fun i j hij => by simpa using hij) List.nodup_range'
  · obtain ⟨j, hj, rfl⟩ := Moved.mem_entries h
    obtain ⟨j', hj', he⟩ := Moved.mem_entries h'
    have he : m.target + j = m'.target + j' := congrArg Location.offset he
    rcases I.apart hm hm' with rfl | hlt | hlt
    · exact hne rfl
    · omega
    · omega

end

/-- Once the scan is over, the words in the slots of the objects have been forwarded. -/
theorem forwarded_slotsOf (I : Invariant a top roots ms p.cursor.top p) {m : Moved} (hm : m ∈ ms) {w : Word}
    (hw : w ∈ a.slotsOf m.old) : w = 0 ∨ ∃ m ∈ ms, m.old = w := by
  rw [(I.objects m hm).slotsOf] at hw
  obtain ⟨i, hi, rfl⟩ := List.mem_map.mp hw
  have hi : i < m.header.slotCount := List.mem_range.mp hi
  have hsize := m.header.size_eq
  have hend := I.end_le hm
  rcases I.forwarded m hm (headerWords + i) (by omega) (Nat.le_add_right ..) (by omega) with hz | ⟨m', hm', ho, _⟩
  · exact .inl hz.1
  · exact .inr ⟨m', hm', ho⟩

end Invariant

/-- A completed pass has moved the roots among others, and has taken the slots of all copies in order. -/
theorem exists_moved {q moved : Pass} (h : start a top = .ok q) (hroots : (relocateRoots roots q).2 = .ok () moved)
    (hscan : scan.run moved = .ok () p) : ∃ ms, Invariant a top roots ms p.cursor.top p ∧
      (∀ r ∈ roots, ∃ m ∈ ms, m.old = r.addr) ∧
      Traced moved ((roundsFrom 0 moved).flatMap Round.turns) (.ok () p) ∧
      ((roundsFrom 0 moved).flatMap Round.turns).map Turn.entry = ms.flatMap (Moved.entries a) := by
  have hout := (Invariant.start a top roots).relocateRoots fun r hr => hr
  rw [← start_eq_ok h, hroots] at hout
  cases hout with
  | @ok _ ms _ _ _ I hq =>
    obtain ⟨rfl, hforwards, _⟩ := hq
    obtain ⟨more, I', hentries⟩ := I.map_entry_scan (Boundary.zero ms) hscan
    have htraced := (I.rounds_sound (Boundary.zero ms)).2
    rw [show Pass.scanFrom 0 moved = .ok () p from hscan] at htraced
    refine ⟨ms ++ more, I', fun r hr => ?_, htraced, hentries⟩
    obtain ⟨m, hm, ho⟩ := (I.forwards_roots hforwards).1 r hr
    exact ⟨m, List.mem_append_left _ hm, ho⟩

/-- The words that a completed pass gives to `relocate` are the roots, and then for each object in the order of
the table the words of its slots, as they stood before the pass. The scan is nothing but one turn for each
slot of each copy, and no word is an address that the table answers with. -/
theorem relocated_once {q moved : Pass} (h : start a top = .ok q) (hroots : (relocateRoots roots q).2 = .ok () moved)
    (hscan : scan.run moved = .ok () p) :
    let turns := (roundsFrom 0 moved).flatMap Round.turns
    let objects := p.table.toList.map Prod.fst
    rootsGiven roots q = roots.map Ref.addr ∧ Traced moved turns (.ok () p) ∧
    turns.map Turn.given = (objects.flatMap a.slotsOf).map some ∧
    (∀ w ∈ objects, ∃ o h, a.ObjectAt top w o h) ∧
    turns.map Turn.slot = p.copier.copies.toList.flatMap (Copy.slots a) ∧ (turns.map Turn.slot).Nodup ∧
    ∀ w ∈ roots.map Ref.addr ++ objects.flatMap a.slotsOf, w ∉ p.table.toList.map Prod.snd := by
  obtain ⟨ms, I, hmoved, htraced, hentries⟩ := exists_moved h hroots hscan
  intro turns objects
  have hobjects : objects = ms.map Moved.old := I.entered_eq
  have hslots : turns.map Turn.slot = (ms.flatMap (Moved.entries a)).map Prod.fst := by
    rw [← hentries, List.map_map]
    rfl
  have hgiven : turns.map Turn.given = (ms.flatMap (Moved.entries a)).map Prod.snd := by
    rw [← hentries, List.map_map]
    rfl
  refine ⟨rootsGiven_eq hroots, htraced, ?given, ?objects, ?slots, ?once, ?never⟩
  case given =>
    rw [hgiven, hobjects, List.map_flatMap, List.map_flatMap, List.flatMap_map]
    exact List.flatMap_congr fun m hm => I.map_snd_entries hm
  case objects =>
    intro w hw
    rw [hobjects] at hw
    obtain ⟨m, hm, rfl⟩ := List.mem_map.mp hw
    exact ⟨m.source, m.header, I.objects m hm⟩
  case slots =>
    rw [hslots, I.noted, List.map_flatMap, List.flatMap_map]
    exact List.flatMap_congr fun m hm => I.map_fst_entries hm
  case once =>
    rw [hslots]
    exact I.nodup_entries
  case never =>
    intro w hw
    apply I.not_mem_new
    rcases List.mem_append.mp hw with hw | hw
    · obtain ⟨r, hr, rfl⟩ := List.mem_map.mp hw
      exact .inr (hmoved r hr)
    · rw [hobjects, List.flatMap_map] at hw
      obtain ⟨m, hm, hw⟩ := List.mem_flatMap.mp hw
      exact I.forwarded_slotsOf hm hw

theorem relocated_once_knot : ∃ q moved p, start knot 4 = .ok q ∧ (relocateRoots knotRoots q).2 = .ok () moved ∧
    scan.run moved = .ok () p ∧ rootsGiven knotRoots q = [0, 1].map (fun o => knot.address ⟨.low, o⟩) ∧
    ((roundsFrom 0 moved).flatMap Round.turns).map Turn.given = [some 0, some (knot.address ⟨.low, 0⟩)] ∧
    knot.address ⟨.low, 0⟩ ∉ p.table.toList.map Prod.snd := by
  have h : start knot 4 = .ok (ofArena knot 4) := if_neg (by decide +kernel)
  obtain ⟨_, moved, hmoved⟩ := exists_of_isSome (r := (relocateRoots knotRoots (ofArena knot 4)).2) (by decide +kernel)
  obtain ⟨_, p, hscan⟩ := exists_of_isSome (r := scan.run (endState (relocateRoots knotRoots (ofArena knot 4)).2))
    (by decide +kernel)
  have hobjects : (endState (scan.run (endState (relocateRoots knotRoots (ofArena knot 4)).2))).table.toList.map
      Prod.fst = [0, 1].map fun o => knot.address ⟨.low, o⟩ := by decide +kernel
  rw [hscan] at hobjects
  rw [hmoved] at hscan
  obtain ⟨hroots, _, hgiven, _, _, _, hnever⟩ := relocated_once h hmoved hscan
  have hslots : ([0, 1].map fun o => knot.address ⟨.low, o⟩).flatMap knot.slotsOf = [0, knot.address ⟨.low, 0⟩] := by
    decide +kernel
  rw [show p.table.toList.map Prod.fst = _ from hobjects, hslots] at hgiven hnever
  refine ⟨_, moved, p, h, hmoved, hscan, hroots.trans (by decide +kernel), hgiven, hnever _ ?_⟩
  exact List.mem_append_right _ (List.mem_cons_of_mem _ (List.mem_singleton_self _))

end Pass

end Semispace

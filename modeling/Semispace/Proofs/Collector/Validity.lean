import Mathlib.Data.Set.Finite.Basic
import Semispace.Proofs.Collector.Passes

/-!
# When a collection answers

`collect_answers_iff`: a collection answers exactly when all that its roots reach is made of objects
that fit in a half together (`ValidGraph`). One reached word that refers to no word in use is enough
for it to fail, whatever the pass has put at that address meanwhile.
-/

namespace Semispace

/-- What the references of a list reach are objects, and the distinct ones of them fit in a half. -/
structure ValidGraph (a : Arena) (top : Nat) (roots : List Ref) : Prop where
  objects : ∀ w, a.Reach roots w → ∃ o h, a.ObjectAt top w o h
  room : ∃ ws : List Word, ws.Nodup ∧ (∀ w, w ∈ ws ↔ a.Reach roots w) ∧ (ws.map a.sizeAt).sum ≤ a.spaceWords

variable {a : Arena} {top : Nat} {roots : List Ref}

/-- There are finitely many words, so those that are reached make a list. -/
theorem Arena.exists_reached (a : Arena) (roots : List Ref) :
    ∃ ws : List Word, ws.Nodup ∧ ∀ w, w ∈ ws ↔ a.Reach roots w := by
  have : Finite Word := Finite.of_injective UInt64.toFin fun _ _ => UInt64.toFin_inj.mp
  have hf : Set.Finite {w | a.Reach roots w} := Set.toFinite _
  exact ⟨hf.toFinset.toList, hf.toFinset.nodup_toList, fun w => by simp⟩

theorem fits_iff_validGraph : Fits a top roots ↔ ValidGraph a top roots := by
  constructor
  · intro F
    obtain ⟨ws, hn, hr⟩ := a.exists_reached roots
    exact ⟨F.objects, ws, hn, hr, F.room ws hn fun w hw => (hr w).mp hw⟩
  · intro V
    obtain ⟨ws, _, hr, hsum⟩ := V.room
    refine ⟨V.objects, fun ws' hn' hs' => ?_⟩
    exact (sum_map_le_of_subset a.sizeAt hn' fun w hw => (hr w).mpr (hs' w hw)).trans hsum

/-- A word that refers to no word in use is no object. -/
theorem ValidGraph.locate (V : ValidGraph a top roots) {w : Word} (hw : a.Reach roots w) :
    ∃ o < top, a.locate w = some ⟨a.active, o⟩ := by
  obtain ⟨o, h, x⟩ := V.objects w hw
  exact ⟨o, x.below, x.located⟩

/-- A collection answers exactly when what its roots reach are objects that fit in a half. Otherwise it
fails and poisons the collector. -/
theorem collect_answers_iff {s : Session} {n : Nat} (hp : s.collector.phase ≠ .poisoned)
    (hn : n ≤ s.collector.roots.top) :
    let a := s.collector.arena
    let top := s.collector.cursor.top
    let live := s.collector.roots.bottom n
    ((∃ summary s', (Mutator.collect n).run s = .ok summary s') ↔ ValidGraph a top live) ∧
    (¬ ValidGraph a top live → ∃ e s', (Mutator.collect n).run s = .error e s' ∧ s'.collector.phase = .poisoned) ∧
    ∀ w, a.Reach live w → (¬ ∃ o < top, a.locate w = some ⟨a.active, o⟩) →
      ∃ e s', (Mutator.collect n).run s = .error e s' ∧ s'.collector.phase = .poisoned := by
  intro a top live
  have hpass := Mutator.passed_collect hp hn
  have hfails : ¬ ValidGraph a top live →
      ∃ e s', (Mutator.collect n).run s = .error e s' ∧ s'.collector.phase = .poisoned := by
    intro hv
    cases hr : (s.collector.relocateLive n).2 with
    | ok u p => exact absurd (fits_iff_validGraph.mp (Collector.relocateLive_ok_iff.mp ⟨p, hr⟩)) hv
    | error e p =>
      obtain ⟨s', hrun, hw⟩ := hpass.run_error hr
      exact ⟨e, s', hrun, hw.phase⟩
  refine ⟨⟨?_, ?_⟩, hfails, fun w hw hl => hfails fun V => hl (V.locate hw)⟩
  · intro hex
    obtain ⟨summary, s', hrun⟩ := hex
    obtain ⟨_, p, hr, _⟩ := Mutator.collect_ok hrun
    exact fits_iff_validGraph.mp (Collector.relocateLive_ok_iff.mp ⟨p, hr⟩)
  · intro V
    obtain ⟨p, hr⟩ := Collector.relocateLive_ok_iff.mpr (fits_iff_validGraph.mpr V)
    obtain ⟨s', hrun, _⟩ := Mutator.run_runCycle_ok .explicit hr
    exact ⟨_, s', (Mutator.run_collect hp hn).trans hrun⟩

/-- Lets an integer move away and writes its old address into the slot of a vector. Both are roots. -/
def Mutator.collide : Mutator Unit := do
  let i ← allocInt 7
  rootPush i
  let _ ← collect 1
  let v ← allocVector [none]
  writeWord v headerWords i.addr
  rootPush v

def Session.collided : Session := endState (Mutator.collide.run .small)

/-- The next pass copies the integer to its old address before it meets the vector, and fails all the
same. -/
theorem collect_answers_iff_collided : ∃ w, Session.collided.collector.arena.locate w = some ⟨.low, 0⟩ ∧
    Session.collided.collector.arena.active = .high ∧
    Session.collided.collector.arena.Reach (Session.collided.collector.roots.bottom 2) w ∧
    ∃ e s', (Mutator.collect 2).run .collided = .error e s' ∧ s'.collector.phase = .poisoned := by
  have hv : ∃ r ∈ Session.collided.collector.roots.bottom 2,
      Session.collided.collector.arena.locate r.addr = some ⟨Session.collided.collector.arena.active, 2⟩ := by
    decide +kernel
  obtain ⟨r, hr, hl⟩ := hv
  have hh : Session.collided.collector.arena.headerAt ⟨Session.collided.collector.arena.active, 2⟩ = some ⟨.vector, 1⟩ := by
    decide +kernel
  have hw := Arena.Reach.slot (i := 0) (.root hr) hl hh (by decide +kernel) (by decide +kernel)
  have hlow : Session.collided.collector.arena.locate
      (Session.collided.collector.arena.slotAt ⟨Session.collided.collector.arena.active, 2⟩ 0) = some ⟨.low, 0⟩ := by
    decide +kernel
  have hactive : Session.collided.collector.arena.active = .high := by decide +kernel
  refine ⟨_, hlow, hactive, hw, ?_⟩
  refine (collect_answers_iff (n := 2) (by decide +kernel) (by decide +kernel)).2.2 _ hw ?_
  intro hex
  obtain ⟨o, _, ho⟩ := hex
  rw [hlow, hactive] at ho
  cases ho

end Semispace

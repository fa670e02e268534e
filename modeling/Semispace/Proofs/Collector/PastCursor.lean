import Semispace.Proofs.Collector.Normal
import Semispace.Proofs.Collector.Validity

/-!
# Records that end past the cursor

A reference is checked against the cursor, a record met by a pass only against the end of the half. So
a pass meets every fault that a check finds but one: a record that starts below the cursor and ends
between it and the end of the half is copied, together with words that are not in use.
-/

namespace Semispace

namespace Collector

variable {c : Collector} {r : Ref} {o : Nat} {h : Header} {e : Error}

/-! ## What a check finds -/

theorem checkObject_past (x : c.arena.ObjectAt c.cursor.top r.addr o h) (hend : c.cursor.top < o + h.size) :
    c.checkObject r = .error (.corruptObject r.addr .pastCursor) := by
  have hl : c.wordLocation r 0 = .ok ⟨c.arena.active, o⟩ := wordLocation_eq_ok_iff.mpr ⟨o, x.located, x.below, rfl⟩
  have hr : Header.read c.arena ⟨c.arena.active, o⟩ = .ok h :=
    Header.read_eq_ok_iff.mpr ⟨x.header, c.arena.isOpen_active, x.inside⟩
  unfold checkObject
  simp only [hl, hr, bind, Except.bind, if_pos hend]
  rfl

/-- What a check refuses otherwise is no object for a pass either. -/
theorem not_objectAt_of_checkObject (hc : c.checkObject r = .error e) (he : e ≠ .corruptObject r.addr .pastCursor) :
    ∀ o h, ¬ c.arena.ObjectAt c.cursor.top r.addr o h := by
  intro o h x
  by_cases hend : o + h.size ≤ c.cursor.top
  · have := checkObject_eq_ok_iff.mpr ⟨o, rfl, x, hend⟩
    rw [hc] at this
    cases this
  · have := checkObject_past x (Nat.not_le.mp hend)
    rw [hc] at this
    exact he (Except.error.inj this)

theorem past_of_checkObject (x : c.arena.ObjectAt c.cursor.top r.addr o h) (hc : c.checkObject r = .error e) :
    c.cursor.top < o + h.size ∧ e = .corruptObject r.addr .pastCursor := by
  by_cases he : e = .corruptObject r.addr .pastCursor
  · refine ⟨?_, he⟩
    by_contra hend
    have := checkObject_eq_ok_iff.mpr ⟨o, rfl, x, Nat.not_lt.mp hend⟩
    rw [hc] at this
    cases this
  · exact absurd x (not_objectAt_of_checkObject hc he o h)

end Collector

theorem Arena.Reach.exists_ref {a : Arena} {roots : List Ref} {w : Word} (h : a.Reach roots w) : ∃ r : Ref, r.addr = w := by
  cases h with
  | @root r _ => exact ⟨r, rfl⟩
  | slot _ _ _ _ hz => exact ⟨⟨_, hz⟩, rfl⟩

namespace Collected

variable {s s' : Session} {n : Nat} {x : CycleSummary} {ms : List Moved} {p : Pass}

/-- A copy was made from past the cursor exactly when a reached reference would not pass a check. -/
theorem exists_past_iff (X : Collected s n x s' ms p) :
    (∃ m ∈ ms, s.collector.cursor.top < m.source + m.header.size) ↔
      ∃ (r : Ref) (e : Error), s.collector.arena.Reach (s.collector.roots.bottom n) r.addr ∧
        s.collector.checkObject r = .error e := by
  constructor
  · rintro ⟨m, hm, hend⟩
    obtain ⟨r, hr⟩ := (X.invariant.reached m hm).exists_ref
    exact ⟨r, _, hr ▸ X.invariant.reached m hm, Collector.checkObject_past (hr ▸ X.invariant.objects m hm) hend⟩
  · rintro ⟨r, e, hr, hc⟩
    obtain ⟨m, hm, ho⟩ := (X.invariant.reach_iff X.moved).mp hr
    exact ⟨m, hm, (Collector.past_of_checkObject (ho ▸ X.invariant.objects m hm) hc).1⟩

/-- Objects below the cursor that share no word leave the pass no larger than they were. -/
theorem after_le (X : Collected s n x s' ms p) (hend : ∀ m ∈ ms, m.source + m.header.size ≤ s.collector.cursor.top)
    (hapart : ∀ m ∈ ms, ∀ m' ∈ ms, m.old ≠ m'.old →
      m.source + m.header.size ≤ m'.source ∨ m'.source + m'.header.size ≤ m.source) : x.wordsAfter ≤ x.wordsBefore := by
  rw [X.after, X.before, X.invariant.blocks.end_eq, Nat.zero_add, List.map_map]
  refine sum_le_of_apart Moved.source (fun m => m.header.size) hend ?_
  have hne : ms.Pairwise fun m m' => m.old ≠ m'.old := List.pairwise_map.mp X.invariant.nodup
  exact hne.imp_of_mem fun hm hm' h => hapart _ hm _ hm' h

end Collected

/-- Which corruption the next collection reports. A reached reference that does not pass a check makes it
fail, unless all that is wrong is that the record ends past the cursor. Collections that answer all the
same are exactly those of graphs that are valid up to the end of the half. They copy words past the
cursor; no other collection that answers does, and no other grows when its objects share no words. -/
theorem collect_reports {s : Session} {n : Nat} (hw : s.collector.WellFormed) (hp : s.collector.phase ≠ .poisoned)
    (hn : n ≤ s.collector.roots.top) :
    let c := s.collector
    let a := c.arena
    let live := c.roots.bottom n
    (∀ (r : Ref) (e : Error), a.Reach live r.addr → c.checkObject r = .error e → e ≠ .corruptObject r.addr .pastCursor →
      ∃ e' s', (Mutator.collect n).run s = .error e' s' ∧ s'.collector.phase = .poisoned) ∧
    (((∃ x s', (Mutator.collect n).run s = .ok x s') ∧
        ∃ (r : Ref) (e : Error), a.Reach live r.addr ∧ c.checkObject r = .error e) ↔
      ValidGraph a c.cursor.top live ∧
        ∃ r : Ref, a.Reach live r.addr ∧ c.checkObject r = .error (.corruptObject r.addr .pastCursor)) ∧
    ∀ x s', (Mutator.collect n).run s = .ok x s' → ∃ made : List Copy, s'.journal.copies = s.journal.copies ++ made ∧
      ((∃ k ∈ made, ∃ o, a.locate k.source = some ⟨a.active, o⟩ ∧ c.cursor.top < o + k.words) ↔
        ∃ (r : Ref) (e : Error), a.Reach live r.addr ∧ c.checkObject r = .error e) ∧
      ((∀ r : Ref, a.Reach live r.addr → ∃ found, c.checkObject r = .ok found) →
        (∀ w w' o o' h h', a.Reach live w → a.Reach live w' → w ≠ w' → a.ObjectAt c.cursor.top w o h →
          a.ObjectAt c.cursor.top w' o' h' → o + h.size ≤ o' ∨ o' + h'.size ≤ o) → x.wordsAfter ≤ x.wordsBefore) := by
  intro c a live
  have hpass := Mutator.passed_collect hp hn
  refine ⟨?others, ⟨?silent, ?valid⟩, ?copies⟩
  case others =>
    intro r e hr hc he
    cases hrel : (c.relocateLive n).2 with
    | error e' p =>
      obtain ⟨s', hrun, hwrecked⟩ := hpass.run_error hrel
      exact ⟨e', s', hrun, hwrecked.phase⟩
    | ok u p =>
      obtain ⟨o, h, x⟩ := (Collector.relocateLive_ok_iff.mp ⟨p, hrel⟩).objects _ hr
      exact absurd x (Collector.not_objectAt_of_checkObject hc he o h)
  case silent =>
    rintro ⟨⟨x, s', hrun⟩, r, e, hr, hc⟩
    obtain ⟨_, p, hrel, _⟩ := Mutator.collect_ok hrun
    have F := Collector.relocateLive_ok_iff.mp ⟨p, hrel⟩
    obtain ⟨o, h, hx⟩ := F.objects _ hr
    exact ⟨fits_iff_validGraph.mp F, r, hr, (Collector.past_of_checkObject hx hc).2 ▸ hc⟩
  case valid =>
    rintro ⟨V, r, hr, hc⟩
    obtain ⟨p, hrel⟩ := Collector.relocateLive_ok_iff.mpr (fits_iff_validGraph.mpr V)
    obtain ⟨s', hrun, _⟩ := Mutator.run_runCycle_ok .explicit hrel
    exact ⟨⟨_, s', (Mutator.run_collect hp hn).trans hrun⟩, r, _, hr, hc⟩
  case copies =>
    intro x s' hrun
    obtain ⟨ms, p, X⟩ := Mutator.collected hw hrun
    have I := X.invariant
    refine ⟨_, X.copies, ?_, fun hchecked hapart => X.after_le ?_ ?_⟩
    · rw [← X.exists_past_iff, I.noted]
      constructor
      · rintro ⟨k, hk, o, hl, hend⟩
        obtain ⟨m, hm, rfl⟩ := List.mem_map.mp hk
        obtain rfl : m.source = o := congrArg Location.offset (Option.some.inj ((I.objects m hm).located.symm.trans hl))
        exact ⟨m, hm, hend⟩
      · rintro ⟨m, hm, hend⟩
        exact ⟨_, List.mem_map_of_mem hm, m.source, (I.objects m hm).located, hend⟩
    · intro m hm
      by_contra hend
      obtain ⟨r, e, hr, hc⟩ := X.exists_past_iff.mp ⟨m, hm, Nat.not_le.mp hend⟩
      obtain ⟨found, hok⟩ := hchecked r hr
      rw [hc] at hok
      cases hok
    · intro m hm m' hm' hne
      exact hapart _ _ _ _ _ _ (I.reached m hm) (I.reached m' hm') hne (I.objects m hm) (I.objects m' hm')

/-! ## A stretched vector -/

/-- Overwrites the length of a vector that is a root with one that fits the half. -/
def Mutator.stretch : Mutator Unit := do
  let v ← allocVector [none]
  rootPush v
  writeWord v 1 10

def Session.stretched : Session := endState (Mutator.stretch.run .small)

/-- The record ends past the cursor, and the next collection copies it all the same. -/
theorem collect_overlooks_stretched : Session.stretched.collector.phase ≠ .poisoned ∧
    ∃ r x s', Session.stretched.collector.arena.Reach (Session.stretched.collector.roots.bottom 1) r.addr ∧
      Session.stretched.collector.checkObject r = .error (.corruptObject r.addr .pastCursor) ∧
      (Mutator.collect 1).run .stretched = .ok x s' ∧ x.wordsBefore = 3 ∧ x.wordsAfter = 12 := by
  refine ⟨by decide +kernel, ?_⟩
  have hr : ∃ r ∈ Session.stretched.collector.roots.bottom 1,
      Session.stretched.collector.checkObject r = .error (.corruptObject r.addr .pastCursor) := by decide +kernel
  obtain ⟨r, hmem, hc⟩ := hr
  obtain ⟨x, s', h⟩ := exists_of_isSome (r := (Mutator.collect 1).run .stretched) (by decide +kernel)
  have hwords : (answer ((Mutator.collect 1).run .stretched)).toOption.map (fun x => (x.wordsBefore, x.wordsAfter)) =
      some (3, 12) := by decide +kernel
  rw [h] at hwords
  obtain ⟨hbefore, hafter⟩ := Prod.mk.inj (Option.some.inj hwords)
  exact ⟨r, x, s', .root hmem, hc, h, hbefore, hafter⟩

/-- The words that are not in use are copied. -/
theorem collect_reports_stretched : Session.stretched.collector.WellFormed ∧
    ∃ x s' made, (Mutator.collect 1).run .stretched = .ok x s' ∧
      s'.journal.copies = Session.stretched.journal.copies ++ made ∧
      ∃ k ∈ made, ∃ o, Session.stretched.collector.arena.locate k.source =
          some ⟨Session.stretched.collector.arena.active, o⟩ ∧ Session.stretched.collector.cursor.top < o + k.words := by
  have hw : Session.stretched.collector.WellFormed := by unfold Collector.WellFormed; decide +kernel
  have hr : ∃ r ∈ Session.stretched.collector.roots.bottom 1,
      Session.stretched.collector.checkObject r = .error (.corruptObject r.addr .pastCursor) := by decide +kernel
  obtain ⟨r, hmem, hc⟩ := hr
  obtain ⟨x, s', h⟩ := exists_of_isSome (r := (Mutator.collect 1).run .stretched) (by decide +kernel)
  obtain ⟨_, _, hcopies⟩ := collect_reports (n := 1) hw (by decide +kernel) (by decide +kernel)
  obtain ⟨made, hmade, hpast, _⟩ := hcopies x s' h
  exact ⟨hw, x, s', made, h, hmade, hpast.mpr ⟨r, _, .root hmem, hc⟩⟩

end Semispace

import Semispace.Proofs.Collector.Action

/-!
# Stale references

A reference is an address and knows nothing of passes. While the half it points into is the vacated
one nothing accepts it (`Session.Refuses`). Completed passes alternate the halves, so this is so after
an odd number of them (`stale_refused_while_vacated`); after an even number it is the address of a word
of the active half once more, and good for whatever object is there then.
-/

namespace Semispace

/-- No operation accepts the reference, and no word in use is at its address. -/
structure Session.Refuses (s : Session) (r : Ref) : Prop where
  readings : s.collector.readings r = .refused (.protectedAccess r.addr)
  vectorSet : ∀ i value, ∃ e, (Mutator.vectorSet r i value).run s = .error e s
  storing : ∀ r' i, ∃ e, (Mutator.vectorSet r' i (some r)).run s = .error e s
  writeWord : ∀ i w, ∃ e, (Mutator.writeWord r i w).run s = .error e s
  rootPush : ∃ e, (Mutator.rootPush r).run s = .error e s
  allocVector : ∀ elements, some r ∈ elements → ∃ e, (Mutator.allocVector elements).run s = .error e s
  passes : ∀ x t live, Action.Starts s x t live → r ∈ t.collector.roots.bottom live →
    ∃ e s', x.perform.run s = .error e s' ∧ s'.collector.phase = .poisoned
  apart : ∀ i < s.collector.arena.spaceWords, r.addr ≠ s.collector.arena.address ⟨s.collector.arena.active, i⟩

/-! ## Into the vacated half -/

section
variable {s : Session} {r : Ref} {loc : Location}

theorem Mutator.run_ensureUsable_error {α : Type} {f : Unit → Mutator α}
    (h : s.collector.phase ≠ .poisoned → ∃ e, (f ()).run s = .error e s) :
    ∃ e, (ensureUsable >>= f).run s = .error e s := by
  by_cases hp : s.collector.phase = .poisoned
  · exact ⟨_, run_ensureUsable_poisoned hp f⟩
  · rw [run_ensureUsable_bind hp]
    exact h hp

variable (hl : s.collector.arena.locate r.addr = some loc) (hh : loc.half ≠ s.collector.arena.active)
include hl hh

theorem not_fits_of_vacated {live : Nat} (hr : r ∈ s.collector.roots.bottom live) :
    ¬ Fits s.collector.arena s.collector.cursor.top (s.collector.roots.bottom live) := by
  intro F
  obtain ⟨o, h, x⟩ := F.objects _ (.root hr)
  have hloc := hl.symm.trans x.located
  cases hloc
  exact hh rfl

theorem Session.refuses_vacated : s.Refuses r := by
  have hword := Collector.wordLocation_vacated hl hh
  have hcheck := Collector.checkObject_of_wordLocation hword
  refine ⟨Collector.readings_of_wordLocation hword, ?_, ?_, ?_, ?_, ?_, ?_, ?_⟩
  · intro i value
    refine Mutator.run_ensureUsable_error fun _ => ⟨.protectedAccess r.addr, ?_⟩
    rw [Mutator.run_collector_bind]
    exact run_liftM_bind_error (Collector.slotLocation_of_checkObject hcheck i) _ s
  · intro r' i
    refine Mutator.run_ensureUsable_error fun _ => ?_
    rw [Mutator.run_collector_bind]
    cases hs : s.collector.slotLocation r' i with
    | error e => exact ⟨e, run_liftM_bind_error rfl _ s⟩
    | ok loc' =>
      rw [run_liftM_bind rfl]
      exact ⟨_, run_liftM_bind_error hcheck _ s⟩
  · intro i w
    refine Mutator.run_ensureUsable_error fun _ => ⟨.protectedAccess r.addr, ?_⟩
    rw [Mutator.run_collector_bind]
    exact run_liftM_bind_error (hword i) _ s
  · refine Mutator.run_ensureUsable_error fun _ => ⟨.protectedAccess r.addr, ?_⟩
    rw [Mutator.run_collector_bind]
    exact run_liftM_bind_error hcheck _ s
  · intro elements hmem
    rw [Mutator.allocVector_eq]
    refine Mutator.run_ensureUsable_error fun _ => ?_
    rw [Mutator.run_collector_bind]
    rcases Mutator.run_checks s.collector s (elements.filterMap id) with ⟨ho, _⟩ | ⟨_, _, e, _, hrun⟩
    · obtain ⟨found, hf⟩ := ho r (List.mem_filterMap.mpr ⟨_, hmem, rfl⟩)
      rw [hcheck] at hf
      cases hf
    · exact ⟨e, run_bind_error hrun _⟩
  · intro x t live hx hr
    have harena := hx.begins.arena
    rw [← harena] at hl hh
    cases hpass : (t.collector.relocateLive live).2 with
    | ok u p => exact absurd (Collector.relocateLive_ok_iff.mp ⟨p, hpass⟩) (not_fits_of_vacated hl hh hr)
    | error e p =>
      obtain ⟨s', hrun, hw⟩ := hx.passed.run_error hpass
      exact ⟨e, s', hrun, hw.phase⟩
  · intro i hi he
    have hloc : s.collector.arena.locate r.addr = some ⟨s.collector.arena.active, i⟩ := by
      rw [he]
      exact s.collector.arena.layout.locate_address hi
    rw [hl] at hloc
    cases hloc
    exact hh rfl

end

/-! ## Which half is active -/

/-- After an even number of completed passes the same half is active, after an odd number the other. -/
theorem Session.after_exchanges : ∀ (xs : List Action) (s : Session),
    (s.after xs).collector.arena.layout = s.collector.arena.layout ∧
    ∃ n, (s.after xs).collector.cycles = s.collector.cycles + n ∧
      (s.after xs).collector.arena.active = if n % 2 = 0 then s.collector.arena.active else s.collector.arena.inactive
  | [], s => ⟨rfl, 0, rfl, rfl⟩
  | x :: xs, s => by
    obtain ⟨hs, hx⟩ := x.exchanges s
    have hl := congrArg Prod.fst hs
    obtain ⟨hl', n, hc, ha⟩ := after_exchanges xs (endState (x.perform.run s))
    -- a pass that `x` completes turns the parity of those after it
    refine ⟨hl'.trans hl, ?_⟩
    rcases hx with ⟨hc', ha'⟩ | ⟨hc', ha'⟩
    · refine ⟨n, hc.trans (by rw [hc']), ha.trans ?_⟩
      unfold Arena.inactive
      rw [ha']
    · refine ⟨n + 1, hc.trans (by omega), ha.trans ?_⟩
      unfold Arena.inactive
      rw [ha']
      by_cases hn : n % 2 = 0
      · rw [if_pos hn, if_neg (by omega)]
        rfl
      · rw [if_neg hn, if_pos (by omega)]
        exact Half.other_other _

/-- What a program does with a reference after `n` more completed passes. After an odd number of them
nothing accepts the reference, and a pass over roots that include it fails. After an even number it is
accepted exactly when a whole object is at that address, whichever it is. A root from the live ones on
keeps the reference it holds. -/
theorem stale_refused_while_vacated {s : Session} {r : Ref} {o : Nat}
    (hl : s.collector.arena.locate r.addr = some ⟨s.collector.arena.active, o⟩) (xs : List Action) :
    let s' := s.after xs
    let c' := s'.collector
    (∃ n, c'.cycles = s.collector.cycles + n ∧ (n % 2 = 1 → s'.Refuses r) ∧
      (n % 2 = 0 → ((∃ found, c'.checkObject r = .ok found) ↔
        ∃ h, c'.arena.ObjectAt c'.cursor.top r.addr o h ∧ o + h.size ≤ c'.cursor.top))) ∧
    ∀ live summary t, (Mutator.collect live).run s' = .ok summary t →
      t.collector.roots.toList.drop live = c'.roots.toList.drop live := by
  intro s' c'
  obtain ⟨hlayout, n, hc, ha⟩ := s.after_exchanges xs
  have hl' : c'.arena.locate r.addr = some ⟨s.collector.arena.active, o⟩ := by
    unfold Arena.locate
    rw [hlayout]
    exact hl
  refine ⟨⟨n, hc, fun hn => ?_, fun hn => ?_⟩, ?_⟩
  · have hother : c'.arena.active = s.collector.arena.inactive := ha.trans (if_neg (by omega))
    exact Session.refuses_vacated hl' (hother ▸ Half.ne_other _)
  · have hsame : c'.arena.active = s.collector.arena.active := ha.trans (if_pos hn)
    rw [← hsame] at hl'
    constructor
    · intro hex
      obtain ⟨⟨loc, h⟩, hf⟩ := hex
      obtain ⟨o', _, x, hend⟩ := Collector.checkObject_eq_ok_iff.mp hf
      have ho := hl'.symm.trans x.located
      cases ho
      exact ⟨h, x, hend⟩
    · intro hex
      obtain ⟨h, x, hend⟩ := hex
      exact ⟨_, Collector.checkObject_eq_ok_iff.mpr ⟨o, rfl, x, hend⟩⟩
  · intro live summary t hrun
    obtain ⟨hle, p, _, hs, _⟩ := Mutator.collect_ok hrun
    have hlen : (c'.relocateLive live).1.length = live := by
      rw [Collector.length_relocateLive]
      exact List.length_take_of_le hle
    rw [hs.roots, List.drop_left' hlen, hlen]

/-- `Session.small` with an integer in it, and the reference to that. -/
def Session.single : Session := endState ((Mutator.allocInt 7).run .small)

def Ref.single : Ref := (answer ((Mutator.allocInt 7).run .small)).toOption.get (by decide +kernel)

/-- One collection without roots. -/
theorem stale_refused_while_vacated_once : (Mutator.allocInt 7).run .small = .ok .single .single ∧
    (Session.single.after [.collect 0]).Refuses .single := by
  have hl : Session.single.collector.arena.locate Ref.single.addr = some ⟨Session.single.collector.arena.active, 0⟩ := by
    decide +kernel
  have hcycles : (Session.single.after [.collect 0]).collector.cycles = Session.single.collector.cycles + 1 := by
    decide +kernel
  obtain ⟨⟨n, hc, hodd, _⟩, _⟩ := stale_refused_while_vacated hl [.collect 0]
  exact ⟨eq_ok_get _, hodd (by omega)⟩

/-- After a second one the next integer is at the address of the first, and the old reference is good
for it. -/
theorem stale_accepted_after_two : (Mutator.allocInt 7).run .small = .ok .single .single ∧
    (Session.single.after [.collect 0]).collector.intValue .single = .error (.protectedAccess Ref.single.addr) ∧
    answer ((Mutator.allocInt 9).run (Session.single.after [.collect 0, .collect 0])) = .ok .single ∧
    (Session.single.after [.collect 0, .collect 0, .allocInt 9]).collector.intValue .single = .ok 9 :=
  ⟨eq_ok_get _, by decide +kernel, by decide +kernel, by decide +kernel⟩

end Semispace

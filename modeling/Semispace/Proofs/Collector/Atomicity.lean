import Semispace.Proofs.Collector.Objects
import Semispace.Proofs.Relocation.Failure

/-!
# Refused operations

Most operations look first and change the collector last (`Atomic`). An allocation for which there is
room is not refused at all, and elements on the root stack are taken off again when they do not all
fit. So an operation that is refused without a pass has changed nothing (`refused_without_pass`).
-/

namespace Semispace

theorem Collector.wordLocation_throws (c : Collector) (r : Ref) (i : Nat) :
    Throws Error.OfReference (c.wordLocation r i) := by
  unfold wordLocation
  split
  · exact .error (.invalidReference _)
  · split
    · exact .error (.protectedAccess _)
    · split
      · exact .error (.invalidReference _)
      · exact .ok _

theorem Collector.checkObject_throws (c : Collector) (r : Ref) : Throws Error.OfReference (c.checkObject r) := by
  refine (c.wordLocation_throws r 0).bind fun loc => (Header.read_throws _ _).bind fun header => ?_
  split
  · exact .error (.corruptObject _ _)
  · exact .ok _

namespace Mutator

/-! ## Operations that change the collector last -/

/-- An operation that leaves the collector as it was when it is refused. -/
def Atomic {α : Type} (x : Mutator α) : Prop :=
  ∀ s e s', x.run s = .error e s' → s'.collector = s.collector

namespace Atomic

variable {α β : Type} {x : Mutator α} {f : α → Mutator β}

theorem throw (e : Error) : Atomic (MonadExcept.throw e : Mutator α) := fun _ _ _ h => by cases h; rfl

theorem update (g : Collector → Collector) : Atomic (Mutator.update g) := fun _ _ _ h => by cases h

theorem bind (hx : Keeps (part id) x) (hf : ∀ a, Atomic (f a)) : Atomic (x >>= f) := by
  intro s e s' h
  have hs : (endState (x.run s)).collector = s.collector := hx s
  cases hr : x.run s with
  | error e' t =>
    rw [run_bind_error hr] at h
    cases h
    rw [hr] at hs
    exact hs
  | ok a t =>
    rw [run_bind_ok hr] at h
    rw [hr] at hs
    exact (hf a t e s' h).trans hs

/-- An operation may give an answer after its change. -/
theorem map (hx : Atomic x) (g : α → β) : Atomic (x >>= fun a => Pure.pure (g a)) := by
  intro s e s' h
  cases hr : x.run s with
  | error e' t =>
    rw [run_bind_error hr] at h
    cases h
    exact hx s _ _ hr
  | ok a t =>
    rw [run_bind_ok hr] at h
    cases h

end Atomic

theorem atomic_pushSlot (r : Ref) : Atomic (pushSlot r) := by
  refine .bind keeps_collector fun c => ?_
  cases c.roots.push r with
  | ok roots => exact .update _
  | error e => exact .bind (keeps_report fun _ => rfl) fun _ => .throw e

theorem atomic_rootPush (r : Ref) : Atomic (rootPush r) :=
  .bind keeps_ensureUsable fun _ => .bind keeps_collector fun _ => .bind (.lift _) fun _ => atomic_pushSlot r

theorem atomic_rootPop : Atomic rootPop :=
  .bind keeps_ensureUsable fun _ => .bind keeps_collector fun _ => .bind (.lift _) fun _ => (Atomic.update _).map _

theorem atomic_vectorSet (r : Ref) (i : Nat) (value : Option Ref) : Atomic (vectorSet r i value) := by
  refine .bind keeps_ensureUsable fun _ => .bind keeps_collector fun c => .bind (.lift _) fun loc => ?_
  cases value with
  | none => exact .bind (.lift _) fun _ => .update _
  | some v => exact .bind (.lift _) fun _ => .bind (.lift _) fun _ => .update _

theorem atomic_writeWord (r : Ref) (i : Nat) (w : Word) : Atomic (writeWord r i w) :=
  .bind keeps_ensureUsable fun _ => .bind keeps_collector fun _ => .bind (.lift _) fun _ =>
    .bind (.lift _) fun _ => .update _

/-! ## Allocations -/

variable {s t : Session} {n : Nat} {e : Error} {elements : List (Option Ref)}

theorem error_of_obtains {m : Session} {ws : List Word} (h : Obtains m ws (.error e t)) :
    m.collector.cursor.fits ws.length = false ∧ e = .outOfMemory ws.length m.collector.cursor.remaining ∧
      t.collector = m.collector := by
  cases h with
  | denied hf hc _ => exact ⟨hf, rfl, hc⟩

theorem not_error_allocate (hw : s.collector.WellFormed) (hp : s.collector.phase ≠ .poisoned) (hn : n ≠ 0)
    (hf : s.collector.cursor.fits n = true) : (allocate n).run s ≠ .error e t := by
  intro h
  have ho := obtains_allocate (.fits hf) hw hp hn
  rw [h] at ho
  have hfull := (error_of_obtains ho).1
  rw [List.length_replicate, hf] at hfull
  cases hfull

theorem not_error_allocScalar (hw : s.collector.WellFormed) (hp : s.collector.phase ≠ .poisoned)
    (hf : s.collector.cursor.fits headerWords = true) (tag : Tag) (second : Word) :
    (allocScalar tag second).run s ≠ .error e t := by
  intro h
  have ho := obtains_allocScalar (.fits hf) hw hp tag second
  rw [h] at ho
  have hfull : s.collector.cursor.fits headerWords = false := (error_of_obtains ho).1
  rw [hf] at hfull
  cases hfull

theorem not_error_buildVector (hw : s.collector.WellFormed) (hp : s.collector.phase ≠ .poisoned) (base : Nat)
    (hf : s.collector.cursor.fits (Header.vectorWords elements.length) = true) :
    (buildVector base elements).run s ≠ .error e t := by
  intro h
  have ho := obtains_buildVector (.fits hf) hw hp base
  rw [h] at ho
  have hfull : s.collector.cursor.fits _ = false := (error_of_obtains ho).1
  rw [length_words_refill, hf] at hfull
  cases hfull

/-- The pass for a vector has completed, if there was one, unless the vector is refused for an error of a pass. -/
theorem cleared_of_buildVector (hp : s.collector.phase ≠ .poisoned) {base : Nat}
    (h : ∀ e t, (buildVector base elements).run s = .error e t → ¬ e.OfPass) :
    ∃ xs m, s.Cleared (Header.vectorWords elements.length) xs m := by
  rcases Session.Cleared.exists_or s (Header.vectorWords elements.length) with hc | ⟨hf, e, p, hr⟩
  · exact hc
  · obtain ⟨s', hrun, _⟩ := (passed_buildVector hp base hf).run_error hr
    exact absurd (Collector.relocateLive_raises hr) (h e s' hrun)

/-- Once its elements are on the root stack a vector is refused for want of memory, or its pass fails. -/
theorem error_of_buildVector (hw : s.collector.WellFormed) (hp : s.collector.phase ≠ .poisoned) {base : Nat}
    (h : (buildVector base elements).run s = .error e t) : (∃ n available, e = .outOfMemory n available) ∨ e.OfPass := by
  by_cases he : e.OfPass
  · exact Or.inr he
  · obtain ⟨xs, m, C⟩ : ∃ xs m, s.Cleared (Header.vectorWords elements.length) xs m := by
      apply cleared_of_buildVector hp
      intro e' t' h'
      rw [h] at h'
      cases h'
      exact he
    have ho := obtains_buildVector C hw hp base
    rw [h] at ho
    exact Or.inl ⟨_, _, (error_of_obtains ho).2.1⟩

/-- A vector that is not refused, but perhaps for want of memory, had its elements on the root stack. -/
theorem exists_of_allocVector
    (h : ∀ e t, (allocVector elements).run s = .error e t → ∃ n available, e = .outOfMemory n available) :
    ∃ t xs m, Rooted s elements t ∧ t.Cleared (Header.vectorWords elements.length) xs m ∧
      (s.collector.WellFormed → Obtains (m.truncated s.collector.roots.top)
        (Content.vector (refill elements (m.collector.roots.toList.drop s.collector.roots.top))).words
        ((allocVector elements).run s)) := by
  have hp : s.collector.phase ≠ .poisoned := by
    intro hp
    obtain ⟨_, _, he⟩ := h _ _ ((congrArg (·.run s) (allocVector_eq elements)).trans (run_ensureUsable_poisoned hp _))
    cases he
  rcases run_allocVector_or hp elements with ⟨r, _, e, he, hrun⟩ | ⟨_, ⟨_, hrun⟩ | ⟨t, x, hrun⟩⟩
  · obtain ⟨_, _, rfl⟩ := h _ _ hrun
    cases s.collector.checkObject_throws r _ he
  · obtain ⟨_, _, he⟩ := h _ _ hrun
    cases he
  · obtain ⟨xs, m, C⟩ : ∃ xs m, t.Cleared (Header.vectorWords elements.length) xs m := by
      apply cleared_of_buildVector (x.usable hp)
      intro e t' h' he
      obtain ⟨_, _, rfl⟩ := h e t' (hrun.trans h')
      cases he
    exact ⟨t, xs, m, x, C, fun hw => hrun ▸ obtains_buildVector C (x.wellFormed hw) (x.usable hp) _⟩

theorem exists_of_allocVector_ok {v : Ref} (h : (allocVector elements).run s = .ok v t) :
    ∃ t' xs m, Rooted s elements t' ∧ t'.Cleared (Header.vectorWords elements.length) xs m ∧
      (s.collector.WellFormed → Placed (m.truncated s.collector.roots.top)
        (Content.vector (refill elements (m.collector.roots.toList.drop s.collector.roots.top))).words v t) := by
  have hok : ∀ e t', (allocVector elements).run s = .error e t' → ∃ n available, e = .outOfMemory n available := by
    intro e t' h'
    rw [h] at h'
    cases h'
  obtain ⟨t', xs, m, x, C, ho⟩ := exists_of_allocVector hok
  exact ⟨t', xs, m, x, C, fun hw => (h ▸ ho hw).placed_of_ok⟩

theorem allocVector_overflows_iff (hw : s.collector.WellFormed) (hp : s.collector.phase ≠ .poisoned) :
    answer ((allocVector elements).run s) = .error (.rootStackOverflow n) ↔
      n = s.collector.roots.capacity ∧ (∀ r ∈ elements.filterMap id, ∃ found, s.collector.checkObject r = .ok found) ∧
      s.collector.roots.capacity < s.collector.roots.top + (elements.filterMap id).length := by
  constructor
  · intro h
    obtain ⟨s', hrun⟩ := exists_of_answer_error h
    rcases run_allocVector_or hp elements with ⟨r, _, e, he, hr⟩ | ⟨ho, ⟨hlt, hr⟩ | ⟨t, x, hr⟩⟩
    · rw [hr] at hrun
      cases hrun
      cases s.collector.checkObject_throws r _ he
    · rw [hr] at hrun
      cases hrun
      exact ⟨rfl, ho, hlt⟩
    · rw [hr] at hrun
      rcases error_of_buildVector (x.wellFormed hw) (x.usable hp) hrun with ⟨_, _, he⟩ | he
      · cases he
      · cases he
  · intro h
    obtain ⟨rfl, ho, hlt⟩ := h
    rcases run_allocVector_or hp elements with ⟨r, hr, e, he, _⟩ | ⟨_, ⟨_, hr⟩ | ⟨t, x, _⟩⟩
    · obtain ⟨found, hf⟩ := ho r hr
      rw [he] at hf
      cases hf
    · rw [hr]
      rfl
    · exact absurd x.top_le (Nat.not_le.mpr hlt)

end Mutator

/-! ## What a refused operation leaves -/

theorem run_discard_error {ε σ α : Type} {y : EStateM ε σ α} {s s' : σ} {e : ε}
    (h : (y >>= fun _ => pure ()).run s = .error e s') : y.run s = .error e s' := by
  cases hr : y.run s with
  | ok a t => rw [run_bind_ok hr] at h; cases h
  | error e' t => rw [run_bind_error hr] at h; cases h; rfl

namespace Action

variable {s s' : Session} {e : Error} {x : Action}

theorem collector_of_error (hw : s.collector.WellFormed) (hp : s.collector.phase ≠ .poisoned)
    (h : x.perform.run s = .error e s') (hn : ∀ t live, ¬ x.Starts s t live) : s'.collector = s.collector := by
  cases x with
  | allocate words =>
    have hr := run_discard_error h
    by_cases hz : words = 0
    · rw [Mutator.allocate_eq, Mutator.run_ensureUsable_bind hp, if_pos hz] at hr
      cases hr
      rfl
    · exact absurd hr (Mutator.not_error_allocate hw hp hz (eq_true_of_ne_false fun hf => hn _ _ (.allocate hp hf)))
  | allocInt v =>
    have hf := eq_true_of_ne_false fun hf => hn _ _ (.allocInt hp hf)
    exact absurd (run_discard_error h) (Mutator.not_error_allocScalar hw hp hf _ _)
  | allocBool v =>
    have hf := eq_true_of_ne_false fun hf => hn _ _ (.allocBool hp hf)
    exact absurd (run_discard_error h) (Mutator.not_error_allocScalar hw hp hf _ _)
  | allocVector elements =>
    have hr := run_discard_error h
    rcases Mutator.run_allocVector_or hp elements with ⟨_, _, _, _, hr'⟩ | ⟨_, ⟨_, hr'⟩ | ⟨t, x, hr'⟩⟩
    · rw [hr'] at hr
      cases hr
      rfl
    · rw [hr'] at hr
      cases hr
      rfl
    · -- with all elements on the root stack only a pass could be the end of it
      rw [hr'] at hr
      have hf : t.collector.cursor.fits (Header.vectorWords elements.length) = true :=
        eq_true_of_ne_false fun hf => hn _ _ (.allocVector hp x hf)
      exact absurd hr (Mutator.not_error_buildVector (x.wellFormed hw) (x.usable hp) _ hf)
  | vectorSet r i value => exact Mutator.atomic_vectorSet r i value _ _ _ h
  | writeWord r i w => exact Mutator.atomic_writeWord r i w _ _ _ h
  | rootPush r => exact Mutator.atomic_rootPush r _ _ _ h
  | rootPop => exact Mutator.atomic_rootPop _ _ _ (run_discard_error h)
  | collect live =>
    have hl : s.collector.roots.top < live := Nat.not_le.mp fun hl => hn _ _ (.collect hp hl)
    have hr := run_discard_error h
    rw [Mutator.run_collect_refused hp hl] at hr
    cases hr
    rfl
  | updateLogger f => cases h

/-- A pass was started when afterwards one more is completed or the collector is poisoned. -/
theorem starts_iff (hp : s.collector.phase ≠ .poisoned) : (∃ t live, x.Starts s t live) ↔
    (endState (x.perform.run s)).collector.cycles = s.collector.cycles + 1 ∨
      (endState (x.perform.run s)).collector.phase = .poisoned := by
  constructor
  · intro h
    obtain ⟨t, live, hs⟩ := h
    have hpassed := hs.passed
    generalize x.perform.run s = out at hpassed
    cases hpassed with
    | failed _ hw => exact Or.inr hw.phase
    | completed _ hsw he =>
      refine Or.inl ((congrArg Collector.Frame.cycles he).trans (hsw.cycles.trans ?_))
      rw [hs.begins.cycles]
  · intro h
    by_contra hn
    have hf := frame_of_not_starts fun t live hs => hn ⟨t, live, hs⟩
    rcases h with h | h
    · have hc : (endState (x.perform.run s)).collector.cycles = s.collector.cycles := congrArg Collector.Frame.cycles hf
      omega
    · exact hp ((congrArg Collector.Frame.phase hf).symm.trans h)

end Action

/-- An operation that is refused and starts no pass leaves the collector as it was in every part. A
vector does not fit on the root stack exactly when all its elements are objects and too many. -/
theorem refused_without_pass {s : Session} (hw : s.collector.WellFormed) (hp : s.collector.phase ≠ .poisoned) :
    (∀ (x : Action) (e : Error) (s' : Session), x.perform.run s = .error e s' →
      ((∃ t live, x.Starts s t live) ↔ s'.collector.cycles = s.collector.cycles + 1 ∨ s'.collector.phase = .poisoned) ∧
      ((∀ t live, ¬ x.Starts s t live) → s'.collector = s.collector)) ∧
    ∀ (elements : List (Option Ref)) (n : Nat),
      answer ((Mutator.allocVector elements).run s) = .error (.rootStackOverflow n) ↔
        n = s.collector.roots.capacity ∧
        (∀ r ∈ elements.filterMap id, ∃ found, s.collector.checkObject r = .ok found) ∧
        s.collector.roots.capacity < s.collector.roots.top + (elements.filterMap id).length := by
  refine ⟨fun x e s' h => ⟨?_, Action.collector_of_error hw hp h⟩, fun elements n =>
    Mutator.allocVector_overflows_iff hw hp⟩
  have hs := @Action.starts_iff s x hp
  rw [h] at hs
  exact hs

/-- Four elements, which are too many beside one root on a stack of four. -/
def Action.overfill : Action := .allocVector (List.replicate 4 (Session.looped.collector.roots.get? 0))

theorem refused_without_pass_looped : Session.looped.collector.WellFormed ∧
    Session.looped.collector.phase ≠ .poisoned ∧
    ∃ s', Action.overfill.perform.run .looped = .error (.rootStackOverflow 4) s' ∧
      s'.collector = Session.looped.collector := by
  have hw : Session.looped.collector.WellFormed := by unfold Collector.WellFormed; decide +kernel
  have hp : Session.looped.collector.phase ≠ .poisoned := by decide +kernel
  have hnone : ¬ ((endState (Action.overfill.perform.run .looped)).collector.cycles =
        Session.looped.collector.cycles + 1 ∨
      (endState (Action.overfill.perform.run .looped)).collector.phase = .poisoned) := by decide +kernel
  obtain ⟨s', hrun⟩ := @exists_of_answer_error _ _ _ (Action.overfill.perform.run .looped) (.rootStackOverflow 4)
    (by decide +kernel)
  obtain ⟨hstarts, hsame⟩ := (refused_without_pass hw hp).1 _ _ _ hrun
  rw [hrun] at hnone
  exact ⟨hw, hp, s', hrun, hsame fun t live hs => hnone (hstarts.mp ⟨t, live, hs⟩)⟩

end Semispace

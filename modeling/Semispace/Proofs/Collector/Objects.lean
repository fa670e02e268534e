import Semispace.Proofs.Collector.Action
import Semispace.Proofs.Collector.Allocation
import Semispace.Proofs.Store.Basic

/-!
# New objects

An operation that makes an object clears room for it first, by a pass over all roots if need be
(`Session.Cleared`). Then it stores the words of the object after the last record, or they are denied
because there is still no room for them (`Obtains`); nothing else happens once the pass has completed.
-/

namespace Semispace

/-! ## Room -/

/-- The session `m` has room for `n` words if the session `s` can have it, after the passes `xs`. -/
inductive Session.Cleared (s : Session) (n : Nat) : List CycleSummary → Session → Prop
  | fits : s.collector.cursor.fits n = true → Cleared s n [] s
  | swept {x : CycleSummary} {m : Session} : s.collector.cursor.fits n = false →
      (Mutator.runCycle s.collector.roots.top (.allocationFailure n s.collector.cursor.remaining)).run (s.triggered n) =
        .ok x m → Cleared s n [x] m

namespace Session.Cleared

variable {s m : Session} {n : Nat} {xs : List CycleSummary}

theorem exists_of_completes (h : s.collector.cursor.fits n = false →
    ∃ p, (s.collector.relocateLive s.collector.roots.top).2 = .ok () p) : ∃ xs m, s.Cleared n xs m := by
  cases hf : s.collector.cursor.fits n with
  | true => exact ⟨_, _, .fits hf⟩
  | false =>
    obtain ⟨p, hp⟩ := h hf
    obtain ⟨m, hrun, _⟩ := Mutator.run_runCycle_ok (s := s.triggered n)
      (.allocationFailure n s.collector.cursor.remaining) hp
    exact ⟨_, _, .swept hf hrun⟩

/-- Room can be had, or the pass for it fails. -/
theorem exists_or (s : Session) (n : Nat) : (∃ xs m, s.Cleared n xs m) ∨
    s.collector.cursor.fits n = false ∧ ∃ e p, (s.collector.relocateLive s.collector.roots.top).2 = .error e p := by
  by_cases hc : s.collector.cursor.fits n = false → ∃ p, (s.collector.relocateLive s.collector.roots.top).2 = .ok () p
  · exact Or.inl (exists_of_completes hc)
  · obtain ⟨hf, hn⟩ := Classical.not_imp.mp hc
    cases hr : (s.collector.relocateLive s.collector.roots.top).2 with
    | ok u p => exact absurd ⟨p, hr⟩ hn
    | error e p => exact Or.inr ⟨hf, e, p, rfl⟩

theorem wellFormed (C : s.Cleared n xs m) (hw : s.collector.WellFormed) : m.collector.WellFormed := by
  cases C with
  | fits _ => exact hw
  | swept _ hrun =>
    obtain ⟨p, hp, hs, _⟩ := Mutator.runCycle_ok hrun
    exact (Swept.copied (s := s.triggered n) hw hp hs).1

theorem run_ensureRoom (C : s.Cleared n xs m) : (Mutator.ensureRoom n).run s = (Mutator.recheck n).run m := by
  cases C with
  | fits hf =>
    rw [Mutator.run_ensureRoom_fits hf]
    unfold Mutator.recheck
    rw [Mutator.run_collector_bind, if_pos hf]
    rfl
  | swept hf hrun => rw [Mutator.run_ensureRoom_full hf, run_bind_ok hrun]

end Session.Cleared

/-! ## Words after the last record -/

/-- The words `ws` of a new object are stored after the last record of `m`. -/
structure Placed (m : Session) (ws : List Word) (r : Ref) (s' : Session) : Prop where
  extended : Extended m.collector s'.collector ws
  address : r.addr = m.collector.arena.address ⟨m.collector.arena.active, m.collector.cursor.top⟩
  stats : s'.collector.stats = m.collector.stats.addAllocation ws.length
  journal : s'.journal = m.journal

/-- How an operation ends that has a new object for `m`. -/
inductive Obtains (m : Session) (ws : List Word) : EStateM.Result Error Session Ref → Prop
  | placed {r : Ref} {s' : Session} : Placed m ws r s' → Obtains m ws (.ok r s')
  | denied {s' : Session} : m.collector.cursor.fits ws.length = false → s'.collector = m.collector →
      s'.journal.copies = m.journal.copies →
      Obtains m ws (.error (.outOfMemory ws.length m.collector.cursor.remaining) s')

theorem Obtains.placed_of_ok {m s' : Session} {ws : List Word} {r : Ref} (h : Obtains m ws (.ok r s')) :
    Placed m ws r s' := by
  cases h with
  | placed P => exact P

/-- The session with its roots from `n` on dropped. -/
def Session.truncated (s : Session) (n : Nat) : Session :=
  { s with collector := { s.collector with roots := s.collector.roots.truncate n } }

namespace Mutator

variable {s m t : Session} {n base : Nat} {r : Ref} {xs : List CycleSummary} {ws ws' : List Word}
  {elements : List (Option Ref)}

theorem stats_of_handOut (h : (handOut n).run s = .ok r t) :
    t.collector.stats = s.collector.stats.addAllocation n := by
  unfold handOut at h
  rw [run_collector_bind] at h
  cases htake : s.collector.cursor.take n with
  | error e => rw [run_liftM_bind_error htake] at h; cases h
  | ok taken =>
    obtain ⟨offset, cursor⟩ := taken
    rw [run_liftM_bind htake] at h
    dsimp only at h
    rw [run_update_bind] at h
    cases hz : s.collector.arena.zero ⟨s.collector.arena.active, offset⟩ n with
    | error e => rw [run_liftM_bind_error hz] at h; cases h
    | ok b =>
      rw [run_liftM_bind hz, run_update_bind] at h
      split at h
      · cases h
      · cases h
        rfl

theorem run_handOut_placed (hw : s.collector.WellFormed) (hn : n ≠ 0) (hf : s.collector.cursor.fits n = true) :
    ∃ r t, (handOut n).run s = .ok r t ∧ Placed s (List.replicate n 0) r t := by
  obtain ⟨r, t, hrun, haddr, x, hj⟩ := run_handOut hw hn hf
  refine ⟨r, t, hrun, x, haddr, ?_, hj⟩
  rw [List.length_replicate]
  exact stats_of_handOut hrun

/-- Filling the words that were handed out puts others in their place. -/
theorem run_fill_placed (P : Placed m ws r s) (hw : m.collector.WellFormed) (hl : ws.length = ws'.length) (hne : ws ≠ []) :
    ∃ t, (fill r ws').run s = .ok () t ∧ Placed m ws' r t := by
  obtain ⟨t, hrun, x⟩ := run_fill P.extended hw P.address hl hne
  have hstats : Keeps (part Collector.stats) (fill r ws') := keeps_fill (fun _ _ => rfl) r ws'
  have hj : Keeps Session.journal (fill r ws') := keeps_fill (fun _ _ => rfl) r ws'
  have hstats := hstats s
  have hj := hj s
  rw [hrun] at hstats hj
  refine ⟨t, hrun, x, P.address, ?_, hj.trans P.journal⟩
  rw [← hl, ← P.stats]
  exact hstats

/-! ## Allocations -/

theorem obtains_allocate (C : s.Cleared n xs m) (hw : s.collector.WellFormed) (hp : s.collector.phase ≠ .poisoned)
    (hn : n ≠ 0) : Obtains m (List.replicate n 0) ((allocate n).run s) := by
  have hlen : (List.replicate n (0 : Word)).length = n := List.length_replicate
  have hroom : (ensureRoom n).run s = (recheck n).run m := C.run_ensureRoom
  rw [run_allocate hp hn]
  unfold recheck at hroom
  rw [run_collector_bind] at hroom
  cases hf : m.collector.cursor.fits n with
  | true =>
    rw [if_pos hf] at hroom
    obtain ⟨r, t, hrun, P⟩ := run_handOut_placed (C.wellFormed hw) hn hf
    rw [run_bind_ok hroom, hrun]
    exact .placed P
  | false =>
    rw [if_neg (by rw [hf]; exact Bool.false_ne_true)] at hroom
    rw [run_bind_error hroom]
    have hd := @Obtains.denied m (List.replicate n 0)
      ⟨m.collector, m.journal.report (.exhausted n m.collector.cursor.remaining)⟩ (hlen.symm ▸ hf) rfl
      ((Journal.copies_report _ _).trans (List.append_nil _))
    rw [hlen] at hd
    exact hd

theorem obtains_allocScalar (C : s.Cleared headerWords xs m) (hw : s.collector.WellFormed)
    (hp : s.collector.phase ≠ .poisoned) (tag : Tag) (second : Word) :
    Obtains m [tag.word, second] ((allocScalar tag second).run s) := by
  have ha := obtains_allocate C hw hp (by decide)
  unfold allocScalar
  generalize hr : (allocate headerWords).run s = out at ha
  cases ha with
  | placed P =>
    obtain ⟨t, hrun, P'⟩ := @run_fill_placed _ _ _ _ [tag.word, second] P (C.wellFormed hw) rfl nofun
    rw [run_bind_ok hr, run_bind_ok hrun]
    exact .placed P'
  | denied hf hc hj =>
    rw [run_bind_error hr]
    exact .denied hf hc hj

theorem length_refill (slots : List (Option Ref)) (rs : List Ref) : (refill slots rs).length = slots.length :=
  (run_mapM_takeNext_mem slots rs).1

theorem length_words_refill (slots : List (Option Ref)) (rs : List Ref) :
    (Content.vector (refill slots rs)).words.length = Header.vectorWords slots.length := by
  rw [Content.length_words]
  exact congrArg (headerWords + ·) (length_refill slots rs)

/-- The elements of a new vector come from the root stack, to which the pass was applied. -/
theorem obtains_buildVector (C : s.Cleared (Header.vectorWords elements.length) xs m) (hw : s.collector.WellFormed)
    (hp : s.collector.phase ≠ .poisoned) (base : Nat) :
    Obtains (m.truncated base) (Content.vector (refill elements (m.collector.roots.toList.drop base))).words
      ((buildVector base elements).run s) := by
  have hlen := length_refill elements (m.collector.roots.toList.drop base)
  have hwords := length_words_refill elements (m.collector.roots.toList.drop base)
  have ha := obtains_allocate C hw hp (by unfold Header.vectorWords headerWords; omega)
  generalize hr : (allocate (Header.vectorWords elements.length)).run s = out at ha
  cases ha with
  | @placed r t P =>
    have hne : List.replicate (Header.vectorWords elements.length) (0 : Word) ≠ [] := by
      apply List.ne_nil_of_length_pos
      rw [List.length_replicate]
      unfold Header.vectorWords headerWords
      omega
    have x := P.extended
    have P' : Placed (m.truncated base) (List.replicate (Header.vectorWords elements.length) 0) r (t.truncated base) :=
      ⟨⟨x.fits, x.stored, x.top, x.capacity, congrArg (RootStack.truncate · base) x.roots, x.phase, x.cycles⟩,
        P.address, P.stats, P.journal⟩
    obtain ⟨s', hrun, P''⟩ := run_fill_placed P' (C.wellFormed hw) (List.length_replicate.trans hwords.symm) hne
    unfold buildVector
    rw [run_observing_bind, hr, run_collector_bind]
    dsimp only [endState, answer]
    rw [run_update_bind, run_liftM_bind rfl]
    have hfill : (fill r (Tag.vector.word :: UInt64.ofNat elements.length ::
        (refill elements (t.collector.roots.toList.drop base)).map Ref.slotWord)).run (t.truncated base) = .ok () s' := by
      rw [x.roots, ← hlen]
      exact hrun
    exact (run_bind_ok hfill _).symm ▸ .placed P''
  | @denied t hf hc hj =>
    rw [run_buildVector_error hr, List.length_replicate, ← hwords]
    rw [List.length_replicate, ← hwords] at hf
    refine .denied hf ?_ hj
    exact congrArg (fun c => { c with roots := c.roots.truncate base }) hc

/-- The allocation of a vector: an element is no object, they do not all fit on the root stack, or
they are all there. -/
theorem run_allocVector_or (hp : s.collector.phase ≠ .poisoned) (elements : List (Option Ref)) :
    (∃ r ∈ elements.filterMap id, ∃ e, s.collector.checkObject r = .error e ∧
      (allocVector elements).run s = .error e s) ∨
    (∀ r ∈ elements.filterMap id, ∃ found, s.collector.checkObject r = .ok found) ∧
      (s.collector.roots.capacity < s.collector.roots.top + (elements.filterMap id).length ∧
        (allocVector elements).run s = .error (.rootStackOverflow s.collector.roots.capacity)
          { s with journal := s.journal.report (.rootsFull s.collector.roots.capacity) } ∨
      ∃ t, Rooted s elements t ∧
        (allocVector elements).run s = (buildVector s.collector.roots.top elements).run t) := by
  rw [allocVector_eq, run_ensureUsable_bind hp, run_collector_bind]
  rcases run_checks s.collector s (elements.filterMap id) with ⟨ho, hrun⟩ | ⟨r, hr, e, he, hrun⟩
  · refine Or.inr ⟨ho, ?_⟩
    rw [run_bind_ok hrun]
    rcases run_pushAll_or (elements.filterMap id) s with ⟨t, hpush, x⟩ | ⟨hlt, hpush⟩
    · exact Or.inr ⟨t, ⟨x, ho⟩, run_bind_ok hpush _⟩
    · exact Or.inl ⟨hlt, run_bind_error hpush _⟩
  · exact Or.inl ⟨r, hr, e, he, run_bind_error hrun _⟩

end Mutator

end Semispace

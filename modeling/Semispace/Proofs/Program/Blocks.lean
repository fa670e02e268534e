import Semispace.Proofs.Collector.Confined
import Semispace.Proofs.Collector.Trace
import Semispace.Proofs.Program.Failure
import Semispace.Proofs.Store.Phases

/-!
# Blocks

Between two completed passes the cursor only moves on, so a block that is handed out lies after all
that was handed out or copied before it (`allocations_fresh`). It is zeroed whatever the half held in
earlier times, and handing it out changes nothing else.
-/

namespace Semispace

/-! ## Operations that hand out a block -/

inductive Allocation
  | words (n : Nat)
  | int (v : Int64)
  | bool (v : Bool)
  | vector (elements : List (Option Ref))

namespace Allocation

def perform : Allocation → Mutator Ref
  | words n => Mutator.allocate n
  | int v => Mutator.allocInt v
  | bool v => Mutator.allocBool v
  | vector elements => Mutator.allocVector elements

def size : Allocation → Nat
  | words n => n
  | int _ => headerWords
  | bool _ => headerWords
  | vector elements => Header.vectorWords elements.length

end Allocation

namespace Mutator

variable {s s' : Session} {r : Ref} {n : Nat}

/-- Words are handed out when they are wanted, the collector is usable, and its pass, if any, completes. -/
theorem cleared_of_allocate (h : (allocate n).run s = .ok r s') :
    s.collector.phase ≠ .poisoned ∧ n ≠ 0 ∧ ∃ xs m, s.Cleared n xs m := by
  have hp : s.collector.phase ≠ .poisoned := by
    intro hp
    rw [allocate_eq, run_ensureUsable_poisoned hp] at h
    cases h
  have hn : n ≠ 0 := by
    rintro rfl
    rw [allocate_eq, run_ensureUsable_bind hp, if_pos rfl] at h
    cases h
  rcases Session.Cleared.exists_or s n with hc | ⟨hf, e, p, hr⟩
  · exact ⟨hp, hn, hc⟩
  · obtain ⟨_, hrun, _⟩ := run_allocate_error hp hf hr
    rw [hrun] at h
    cases h

end Mutator

namespace Placed

variable {m s' : Session} {ws : List Word} {r : Ref} (P : Placed m ws r s')
include P

theorem refers (hw : m.collector.WellFormed) (hne : ws ≠ []) : s'.collector.Refers r m.collector.cursor.top :=
  P.extended.located hw P.address hne

end Placed

/-- Every block that is handed out starts where the cursor was and ends where it is. -/
theorem Allocation.placed {s s' : Session} {r : Ref} {x : Allocation} (hw : s.collector.WellFormed)
    (h : x.perform.run s = .ok r s') : ∃ m ws, m.collector.WellFormed ∧ Placed m ws r s' ∧ ws.length = x.size ∧ ws ≠ [] := by
  have hscalar : ∀ tag second, (Mutator.allocScalar tag second).run s = .ok r s' →
      ∃ m, m.collector.WellFormed ∧ Placed m [tag.word, second] r s' := by
    intro tag second h
    obtain ⟨a, t, ha, _⟩ := exists_of_run_bind h
    obtain ⟨hp, _, xs, m, C⟩ := Mutator.cleared_of_allocate ha
    have ho := Mutator.obtains_allocScalar C hw hp tag second
    rw [h] at ho
    exact ⟨m, C.wellFormed hw, ho.placed_of_ok⟩
  cases x with
  | words n =>
    obtain ⟨hp, hn, xs, m, C⟩ := Mutator.cleared_of_allocate h
    have ho := Mutator.obtains_allocate C hw hp hn
    rw [show (Mutator.allocate n).run s = .ok r s' from h] at ho
    refine ⟨m, _, C.wellFormed hw, ho.placed_of_ok, List.length_replicate, ?_⟩
    rw [ne_eq, List.replicate_eq_nil_iff]
    exact hn
  | int v =>
    obtain ⟨m, hm, P⟩ := hscalar _ _ h
    exact ⟨m, _, hm, P, rfl, nofun⟩
  | bool v =>
    obtain ⟨m, hm, P⟩ := hscalar _ _ h
    exact ⟨m, _, hm, P, rfl, nofun⟩
  | vector elements =>
    obtain ⟨t, xs, m, x, C, hplaced⟩ := Mutator.exists_of_allocVector_ok h
    exact ⟨m.truncated s.collector.roots.top, _, C.wellFormed (x.wellFormed hw), hplaced hw,
      Mutator.length_words_refill .., nofun⟩

/-! ## Within an epoch -/

namespace Mutator

variable {s : Session} {n : Nat}

theorem top_le_handOut (n : Nat) (s : Session) :
    s.collector.cursor.top ≤ (endState ((handOut n).run s)).collector.cursor.top := by
  unfold handOut
  rw [run_collector_bind]
  cases ht : s.collector.cursor.take n with
  | error e => exact Nat.le_refl _
  | ok taken =>
    obtain ⟨offset, cursor⟩ := taken
    have hc : s.collector.cursor.top ≤ cursor.top := by
      have := (Cursor.take_eq_ok_iff.mp ht).2.2.1
      omega
    rw [run_liftM_bind rfl]
    dsimp only
    rw [run_update_bind]
    cases hb : s.collector.arena.zero ⟨s.collector.arena.active, offset⟩ n with
    | error e => exact hc
    | ok b =>
      rw [run_liftM_bind rfl, run_update_bind]
      split
      · exact hc
      · exact hc

theorem top_le_allocate (hf : s.collector.cursor.fits n = true) :
    s.collector.cursor.top ≤ (endState ((allocate n).run s)).collector.cursor.top := by
  rw [allocate_eq]
  by_cases hp : s.collector.phase = .poisoned
  · rw [run_ensureUsable_poisoned hp]
    exact Nat.le_refl _
  rw [run_ensureUsable_bind hp]
  by_cases hn : n = 0
  · rw [if_pos hn]
    exact Nat.le_refl _
  rw [if_neg hn, run_bind_ok (run_ensureRoom_fits hf)]
  exact top_le_handOut n s

end Mutator

/-- An operation that runs no pass moves the cursor on, if it moves it. -/
theorem Action.top_le_of_not_starts {s : Session} {x : Action} (h : ∀ t live, ¬ x.Starts s t live) :
    s.collector.cursor.top ≤ (endState (x.perform.run s)).collector.cursor.top := by
  have hkeep : ∀ {y : Mutator Unit}, Keeps (Mutator.part Collector.cursor) y →
      s.collector.cursor.top ≤ (endState (y.run s)).collector.cursor.top :=
    fun hy => Nat.le_of_eq (congrArg Cursor.top (hy s)).symm
  have hrefused : ∀ {y : Mutator Unit} {e : Error} {t : Session}, y.run s = .error e t → t.collector = s.collector →
      s.collector.cursor.top ≤ (endState (y.run s)).collector.cursor.top := by
    intro y e t hrun ht
    rw [hrun, ← ht]
    exact Nat.le_refl _
  by_cases hp : s.collector.phase = .poisoned
  · by_cases hx : x.Mutates
    · exact hrefused (run_poisoned hp hx) rfl
    · cases x with
      | updateLogger f => exact Nat.le_refl _
      | _ => exact absurd trivial hx
  -- the cursor of an allocation is that of its words
  have halloc : ∀ {y : Mutator Ref} {t : Session} {n : Nat}, t.collector.cursor = s.collector.cursor →
      t.collector.cursor.fits n = true →
      Mutator.part Collector.cursor (endState (y.run s)) =
        Mutator.part Collector.cursor (endState ((Mutator.allocate n).run t)) →
      s.collector.cursor.top ≤ (endState ((do let _ ← y : Mutator Unit).run s)).collector.cursor.top := by
    intro y t n ht hf hy
    have hend : Mutator.part Collector.cursor (endState ((do let _ ← y : Mutator Unit).run s)) =
        Mutator.part Collector.cursor (endState ((Mutator.allocate n).run t)) :=
      Keeps.run_bind hy fun _ => .pure _
    rw [← ht]
    exact Nat.le_trans (Mutator.top_le_allocate hf) (Nat.le_of_eq (congrArg Cursor.top hend).symm)
  cases x with
  | allocate words => exact halloc rfl (eq_true_of_ne_false fun hf => h _ _ (.allocate hp hf)) rfl
  | allocInt v =>
    refine halloc rfl (eq_true_of_ne_false fun hf => h _ _ (.allocInt hp hf)) ?_
    exact Mutator.endState_allocScalar (fun _ _ => rfl) .int v.toUInt64 s
  | allocBool v =>
    refine halloc rfl (eq_true_of_ne_false fun hf => h _ _ (.allocBool hp hf)) ?_
    exact Mutator.endState_allocScalar (fun _ _ => rfl) .bool (if v then 1 else 0) s
  | allocVector elements =>
    rcases Mutator.run_allocVector_or hp elements with ⟨_, _, _, _, hrun⟩ | ⟨_, ⟨_, hrun⟩ | ⟨t, hr, hrun⟩⟩
    · exact hrefused (run_bind_error hrun _) rfl
    · exact hrefused (run_bind_error hrun _) rfl
    · have hf : t.collector.cursor.fits (Header.vectorWords elements.length) = true :=
        eq_true_of_ne_false fun hf => h _ _ (.allocVector hp hr hf)
      refine halloc hr.cursor hf ?_
      rw [hrun]
      exact Mutator.endState_buildVector (fun _ _ => rfl) (fun _ _ => rfl) _ elements t
  | vectorSet r i value => exact hkeep (Mutator.keeps_vectorSet (fun _ _ => rfl) r i value)
  | writeWord r i w => exact hkeep (Mutator.keeps_writeWord (fun _ _ => rfl) r i w)
  | rootPush r => exact hkeep (Mutator.keeps_rootPush (fun _ _ => rfl) (fun _ _ => rfl) r)
  | rootPop => exact hkeep ((Mutator.keeps_rootPop fun _ _ => rfl).bind fun _ => .pure _)
  | collect live =>
    have hl : s.collector.roots.top < live := Nat.not_le.mp fun hl => h _ _ (.collect hp hl)
    exact hrefused (run_bind_error (Mutator.run_collect_refused hp hl) _) rfl
  | updateLogger f => exact Nat.le_refl _

/-- The session `s'` is a later one of the same epoch as `s`, or of a later epoch. -/
structure Session.Precedes (s s' : Session) : Prop where
  layout : s'.collector.arena.layout = s.collector.arena.layout
  cycles : s.collector.cycles ≤ s'.collector.cycles
  active : s'.collector.cycles = s.collector.cycles → s'.collector.arena.active = s.collector.arena.active
  top : s'.collector.cycles = s.collector.cycles → s.collector.cursor.top ≤ s'.collector.cursor.top

namespace Session.Precedes

variable {s s' t : Session}

theorem refl (s : Session) : s.Precedes s := ⟨rfl, Nat.le_refl _, fun _ => rfl, fun _ => Nat.le_refl _⟩

theorem trans (h : s.Precedes t) (h' : t.Precedes s') : s.Precedes s' := by
  have heq : s'.collector.cycles = s.collector.cycles →
      s'.collector.cycles = t.collector.cycles ∧ t.collector.cycles = s.collector.cycles := by
    intro he
    have h1 := h.cycles
    have h2 := h'.cycles
    omega
  refine ⟨h'.layout.trans h.layout, Nat.le_trans h.cycles h'.cycles, fun he => ?_, fun he => ?_⟩
  · exact (h'.active (heq he).1).trans (h.active (heq he).2)
  · exact Nat.le_trans (h.top (heq he).2) (h'.top (heq he).1)

theorem perform (s : Session) (y : Turn) : s.Precedes (y.perform s) := by
  cases y with
  | stores memory => exact ⟨rfl, Nat.le_refl _, fun _ => rfl, fun _ => Nat.le_refl _⟩
  | operation x =>
    obtain ⟨hshape, hx⟩ := x.exchanges s
    have hlayout : (endState (x.perform.run s)).collector.arena.layout = s.collector.arena.layout :=
      congrArg Prod.fst hshape
    rcases hx with ⟨hc, ha⟩ | ⟨hc, _⟩
    · refine ⟨hlayout, Nat.le_of_eq hc.symm, fun _ => ha, fun _ => ?_⟩
      show s.collector.cursor.top ≤ (endState (x.perform.run s)).collector.cursor.top
      -- a pass that completed would have counted, so one that was run has failed
      by_cases hs : ∃ t live, x.Starts s t live
      · obtain ⟨t, live, hs⟩ := hs
        have b := hs.begins
        cases hr : (t.collector.relocateLive live).2 with
        | ok u p =>
          have hc' := hs.passed.cycles_of_completed hr
          rw [b.cycles] at hc'
          omega
        | error e p =>
          obtain ⟨s', hrun, hw⟩ := hs.passed.run_error hr
          rw [hrun, ← b.cursor]
          exact Nat.le_of_eq (congrArg Cursor.top hw.cursor).symm
      · exact x.top_le_of_not_starts fun t live h => hs ⟨t, live, h⟩
    · have hlater : (endState (x.perform.run s)).collector.cycles ≠ s.collector.cycles := by omega
      exact ⟨hlayout, Nat.le_of_lt (by rw [show ((Turn.operation x).perform s).collector.cycles = _ from hc]; omega),
        fun he => absurd he hlater, fun he => absurd he hlater⟩

theorem through (s : Session) (ys : List Turn) : s.Precedes (s.through ys) := by
  induction ys generalizing s with
  | nil => exact refl s
  | cons y ys ih => exact (perform s y).trans (ih (y.perform s))

end Session.Precedes

/-! ## Fresh blocks -/

/-- The reference heads a new block of `n` words, which begins at the offset `o` of the active half. -/
structure Heads (s s' : Session) (r : Ref) (n o : Nat) : Prop where
  refers : s'.collector.Refers r o
  aligned : r.addr.toNat % wordBytes = 0
  inside : o + n ≤ s'.collector.arena.spaceWords
  zeroed : ∀ i < n, s'.collector.arena.word ⟨s'.collector.arena.active, o + i⟩ = 0
  top : s'.collector.cursor.top = o + n
  /-- The copies that the pass made, if one was run, end before the block. -/
  copies : ∃ made, s'.journal.copies = s.journal.copies ++ made ∧ ∀ k ∈ made, ∃ i,
    k.target = s'.collector.arena.address ⟨s'.collector.arena.active, i⟩ ∧ i + k.words ≤ o
  /-- So does every block that was handed out since the last pass. -/
  apart : ∀ (x : Allocation) (s₀ s₁ : Session) (r₀ : Ref) (ys : List Turn), s₀.collector.WellFormed →
    x.perform.run s₀ = .ok r₀ s₁ → (s₁.through ys).collector = s.collector →
    s'.collector.cycles = s₁.collector.cycles → ∃ i, s'.collector.Refers r₀ i ∧ i + x.size ≤ o
  framed : (∀ t live, ¬ (Action.allocate n).Starts s t live) → s'.collector.arena.active = s.collector.arena.active ∧
    s'.collector.roots = s.collector.roots ∧ ∀ loc : Location, loc.offset < s.collector.arena.spaceWords →
      (loc.half = s'.collector.arena.active → loc.offset < o ∨ o + n ≤ loc.offset) →
      s'.collector.arena.word loc = s.collector.arena.word loc

theorem Collector.Refers.aligned {c : Collector} {r : Ref} {o : Nat} (x : c.Refers r o) : r.addr.toNat % wordBytes = 0 := by
  have hstart := c.arena.layout.start_mod_word c.arena.active
  rw [x.toNat.2]
  unfold wordBytes at *
  omega

/-- The block of an allocation stays below the cursor until the next pass. -/
theorem Allocation.below {x : Allocation} {s₀ s₁ s : Session} {r : Ref} (hw : s₀.collector.WellFormed)
    (hx : x.perform.run s₀ = .ok r s₁) (h : s₁.Precedes s) (hcycles : s.collector.cycles = s₁.collector.cycles) :
    ∃ i, s.collector.Refers r i ∧ i + x.size ≤ s.collector.cursor.top := by
  obtain ⟨m, ws, hm, P, hlen, hne⟩ := x.placed hw hx
  refine ⟨m.collector.cursor.top, ?_, ?_⟩
  · have hrefers := P.refers hm hne
    unfold Collector.Refers Arena.locate at hrefers ⊢
    rw [h.layout, h.active hcycles]
    exact hrefers
  · rw [← hlen, ← P.extended.top]
    exact h.top hcycles

theorem Session.Cleared.copies_le {s m : Session} {n : Nat} {xs : List CycleSummary} (C : s.Cleared n xs m)
    (hw : s.collector.WellFormed) : ∃ made, m.journal.copies = s.journal.copies ++ made ∧ ∀ k ∈ made, ∃ i,
      k.target = m.collector.arena.address ⟨m.collector.arena.active, i⟩ ∧ i + k.words ≤ m.collector.cursor.top := by
  cases C with
  | fits _ => exact ⟨[], (List.append_nil _).symm, nofun⟩
  | swept hf hrun =>
    obtain ⟨made, rs, hcopies, ht, hmade⟩ := (Session.Cleared.swept hf hrun).runs.records hw
    refine ⟨made, hcopies, fun k hk => ?_⟩
    have hmem : (k.target, k.words) ∈ made.map fun k => (k.target, k.words) := List.mem_map_of_mem hk
    rw [hmade] at hmem
    obtain ⟨e, he, heq⟩ := List.mem_map.mp hmem
    obtain ⟨htarget, hwords⟩ := Prod.mk.inj heq
    exact ⟨e.1, htarget.symm, hwords ▸ (ht.consecutive.bounds he).2⟩

theorem heads_of_allocate {s s' : Session} {r : Ref} {n : Nat} (hw : s.collector.WellFormed)
    (h : (Mutator.allocate n).run s = .ok r s') : ∃ o, Heads s s' r n o := by
  obtain ⟨hp, hn, xs, m, C⟩ := Mutator.cleared_of_allocate h
  have ho := Mutator.obtains_allocate C hw hp hn
  rw [h] at ho
  have P := ho.placed_of_ok
  have hm := C.wellFormed hw
  have hlen : (List.replicate n (0 : Word)).length = n := List.length_replicate
  have hne : List.replicate n (0 : Word) ≠ [] := by
    rw [ne_eq, List.replicate_eq_nil_iff]
    exact hn
  have hrefers := P.refers hm hne
  refine ⟨m.collector.cursor.top, hrefers, hrefers.aligned, ?inside, ?zeroed, ?top, ?copies, ?apart, ?framed⟩
  case inside =>
    rw [P.extended.spaceWords, ← hm]
    exact hlen ▸ P.extended.fits
  case zeroed =>
    intro i hi
    rw [P.extended.word_new (hlen.symm ▸ hi), List.getElem_replicate]
  case top => exact hlen ▸ P.extended.top
  case copies =>
    obtain ⟨made, hcopies, hmade⟩ := C.copies_le hw
    refine ⟨made, by rw [P.journal, hcopies], fun k hk => ?_⟩
    obtain ⟨i, htarget, hend⟩ := hmade k hk
    exact ⟨i, htarget.trans (P.extended.address i).symm, hend⟩
  case apart =>
    intro x s₀ s₁ r₀ ys hw₀ hx hthrough hcycles
    have hbefore := Session.Precedes.through s₁ ys
    -- the epoch is still that of the earlier block, so no pass has made the room
    have hlater : s.collector.cycles = s₁.collector.cycles ∧ m = s := by
      have hend : s'.collector.cycles = m.collector.cycles := P.extended.cycles
      have hle := hbefore.cycles
      rw [hthrough] at hle
      rcases C.length_le with ⟨_, rfl⟩ | ⟨y, rfl⟩
      · exact ⟨hend.symm.trans hcycles, rfl⟩
      · have := C.runs.cycles_eq
        omega
    obtain ⟨hsame, rfl⟩ := hlater
    obtain ⟨i, hrefers₀, hend⟩ := x.below hw₀ hx hbefore (by rw [hthrough, hsame])
    rw [hthrough] at hrefers₀ hend
    refine ⟨i, ?_, hend⟩
    unfold Collector.Refers Arena.locate at hrefers₀ ⊢
    rw [P.extended.stored.layout, P.extended.stored.active]
    exact hrefers₀
  case framed =>
    intro hquiet
    cases C with
    | swept hf _ => exact absurd (.allocate hp hf) (hquiet _ _)
    | fits _ =>
      refine ⟨P.extended.stored.active, P.extended.roots, fun loc hl ho => P.extended.stored.outside loc hl fun hh => ?_⟩
      rw [hlen]
      exact ho (hh.trans P.extended.stored.active.symm)

namespace Call

variable {α : Type} {call : EntryPoint} {op : Mutator α} {p p' : Program} {size : Int} {n : Nat}

/-- A call that answers has run its operation on the collector in the slot, and changes nothing else. -/
theorem exists_of_onCollector {a : α} (h : (onCollector call op).run p = .ok (some a) p') :
    ∃ c s, p.slot = some c ∧ op.run ⟨c, p.journal⟩ = .ok a s ∧
      p' = { p with slot := some s.collector, journal := s.journal } := by
  cases hc : p.slot with
  | none =>
    obtain ⟨_, hr, _⟩ := run_onCollector_none call op hc
    rw [hr] at h
    cases h
  | some c =>
    cases ho : op.run ⟨c, p.journal⟩ with
    | error e s =>
      by_cases hf : e.isFatal = true
      · obtain ⟨_, hr, _⟩ := run_onCollector_fatal call hc ho hf
        rw [hr] at h
        cases h
      · obtain ⟨_, hr, _⟩ := run_onCollector_refused call hc ho hf
        rw [hr] at h
        cases h
    | ok b s =>
      unfold onCollector at h
      rw [run_get_bind, hc] at h
      dsimp only at h
      rw [ho] at h
      cases h
      exact ⟨c, s, rfl, ho, rfl⟩

theorem malloc_ok (h : wordsForBytes size = .ok n) : malloc size = onCollector .malloc (Mutator.allocate n) := by
  unfold malloc
  rw [h]

theorem run_malloc_error {e : Error} (h : wordsForBytes size = .error e) (p : Program) :
    (malloc size).run p = .ok none { p with journal := p.journal.report (.sizeRefused size e) } := by
  unfold malloc
  rw [h]
  rfl

/-- A call for bytes that answers has handed out as many words as hold them. -/
theorem exists_of_malloc {r : Ref} (h : (malloc size).run p = .ok (some r) p') :
    ∃ n c s, wordsForBytes size = .ok n ∧ p.slot = some c ∧ (Mutator.allocate n).run ⟨c, p.journal⟩ = .ok r s ∧
      p' = { p with slot := some s.collector, journal := s.journal } := by
  cases hn : wordsForBytes size with
  | error e =>
    rw [run_malloc_error hn] at h
    cases h
  | ok n =>
    rw [malloc_ok hn] at h
    obtain ⟨c, s, hc, hs, hp⟩ := exists_of_onCollector h
    exact ⟨n, c, s, rfl, hc, hs, hp⟩

end Call

/-- Words that are handed out are a new, zeroed block, and so are those that a call for bytes answers:
as few as hold the bytes. A call for no bytes, or fewer, answers null and is reported, and that is all. -/
theorem allocations_fresh :
    (∀ (s s' : Session) (n : Nat) (r : Ref), s.collector.WellFormed → (Mutator.allocate n).run s = .ok r s' →
      ∃ o, Heads s s' r n o) ∧
    (∀ (p p' : Program) (size : Int) (r : Ref), (∀ c, p.slot = some c → c.WellFormed) →
      (Call.malloc size).run p = .ok (some r) p' →
      ∃ (c c' : Collector) (n o : Nat), p.slot = some c ∧ p' = { p with slot := some c', journal := p'.journal } ∧
        size ≤ 8 * n ∧ 8 * (n - 1 : Int) < size ∧ Heads ⟨c, p.journal⟩ ⟨c', p'.journal⟩ r n o) ∧
    ∀ (p : Program) (size : Int), size ≤ 0 →
      (Call.malloc size).run p = .ok none { p with journal := p.journal.report (.sizeRefused size (.invalidSize 0)) } := by
  refine ⟨fun _ _ _ _ => heads_of_allocate, fun p p' size r hw h => ?_, fun p size h => ?_⟩
  · obtain ⟨n, c, s, hn, hc, hs, rfl⟩ := Call.exists_of_malloc h
    obtain ⟨o, H⟩ := heads_of_allocate (hw c hc) hs
    exact ⟨c, s.collector, n, o, hc, rfl, (wordsForBytes_bounds hn).1, (wordsForBytes_bounds hn).2, H⟩
  · apply Call.run_malloc_error
    unfold wordsForBytes
    rw [if_pos h]

def Program.crowded : Program := ⟨.standard, .empty, some Session.crowded.collector, Session.crowded.journal⟩

/-- Ten words do not fit, by the word or by the byte, so they begin where the copies end. -/
theorem allocations_fresh_crowded :
    (∃ r s', (Mutator.allocate 10).run .crowded = .ok r s' ∧ Heads .crowded s' r 10 6) ∧
    (∃ (r : Ref) (p' : Program) (c' : Collector) (n o : Nat), (Call.malloc 75).run .crowded = .ok (some r) p' ∧
      p'.slot = some c' ∧ 75 ≤ 8 * (n : Int) ∧ 8 * (n - 1 : Int) < 75 ∧
      Heads ⟨Session.crowded.collector, Program.crowded.journal⟩ ⟨c', p'.journal⟩ r n o) ∧
    ((0 : Int) ≤ 0 ∧ (Call.malloc 0).run .crowded = .ok none
      { Program.crowded with journal := Program.crowded.journal.report (.sizeRefused 0 (.invalidSize 0)) }) := by
  have hw : Session.crowded.collector.WellFormed := by unfold Collector.WellFormed; decide +kernel
  obtain ⟨hwords, hbytes, hnone⟩ := allocations_fresh
  refine ⟨?_, ?_, Int.le_refl 0, hnone .crowded 0 (Int.le_refl 0)⟩
  · obtain ⟨r, s', h⟩ := exists_of_isSome (r := (Mutator.allocate 10).run .crowded) (by decide +kernel)
    obtain ⟨o, H⟩ := hwords _ _ 10 r hw h
    have htop : (endState ((Mutator.allocate 10).run .crowded)).collector.cursor.top = 16 := by decide +kernel
    rw [h] at htop
    have ho : o + 10 = 16 := H.top.symm.trans htop
    exact ⟨r, s', h, (by omega : o = 6) ▸ H⟩
  · have hn : wordsForBytes 75 = .ok 10 := rfl
    have hslot : Program.crowded.slot = some Session.crowded.collector := rfl
    obtain ⟨r, s', h⟩ := exists_of_isSome
      (r := (Mutator.allocate 10).run ⟨Session.crowded.collector, Program.crowded.journal⟩) (by decide +kernel)
    obtain ⟨p', hrun, _⟩ := Call.run_onCollector_ok .malloc hslot h
    rw [← Call.malloc_ok hn] at hrun
    obtain ⟨c, c', n, o, hc, hp, hle, hlt, H⟩ :=
      hbytes .crowded p' 75 r (fun c hc => Option.some.inj (hslot.symm.trans hc) ▸ hw) hrun
    obtain rfl := Option.some.inj (hslot.symm.trans hc)
    refine ⟨r, p', c', n, o, hrun, ?_, hle, hlt, H⟩
    rw [hp]

end Semispace

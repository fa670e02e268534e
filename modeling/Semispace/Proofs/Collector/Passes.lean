import Semispace.Proofs.Collector.Shape

/-!
# Passes within operations

A collection runs a pass over the roots it is told to keep; an allocation that does not fit runs one
over all roots, the elements of a new vector among them. Such an operation ends as its pass does when
that fails, and otherwise changes nothing of the frame after it (`Passed`).
-/

namespace Semispace

theorem Cursor.ne_zero_of_not_fits {c : Cursor} {n : Nat} (h : c.fits n = false) : n ≠ 0 := by
  rintro rfl
  exact of_decide_eq_false h c.top_le

theorem Collector.length_rootsAfter (c : Collector) (live : Nat) : (c.rootsAfter live).length = c.roots.top := by
  have h := c.length_relocateLive_le live
  have ht : c.roots.toList.length = c.roots.top := rfl
  unfold rootsAfter
  rw [List.length_append, List.length_drop]
  omega

/-- The session in which the pass of an allocation runs: that there is no room was reported. -/
def Session.triggered (s : Session) (words : Nat) : Session where
  collector := { s.collector with
    logger := s.collector.logger.keep (.allocationFailure words s.collector.cursor.remaining)
    stats := s.collector.stats.addTrigger }
  journal := s.collector.logger.record s.journal (.allocationFailure words s.collector.cursor.remaining)

/-- How making room for `words` words ends. -/
inductive Room (s : Session) (words : Nat) : EStateM.Result Error Session Unit → Prop
  | fits : s.collector.cursor.fits words = true → Room s words (.ok () s)
  | failed {e : Error} {p : Pass} {s' : Session} : s.collector.cursor.fits words = false →
      (s.collector.relocateLive s.collector.roots.top).2 = .error e p →
      Wrecked (s.triggered words).collector (s.collector.rootsAfter s.collector.roots.top) p s'.collector →
      Room s words (.error e s')
  | made {p : Pass} {s' : Session} : s.collector.cursor.fits words = false →
      (s.collector.relocateLive s.collector.roots.top).2 = .ok () p →
      Swept (s.triggered words) s.collector.roots.top (.allocationFailure words s.collector.cursor.remaining) p s' →
      s'.collector.cursor.fits words = true → Room s words (.ok () s')
  | exhausted {p : Pass} {s' : Session} : s.collector.cursor.fits words = false →
      (s.collector.relocateLive s.collector.roots.top).2 = .ok () p →
      Swept (s.triggered words) s.collector.roots.top (.allocationFailure words s.collector.cursor.remaining) p s' →
      s'.collector.cursor.fits words = false →
      Room s words (.error (.outOfMemory words s'.collector.cursor.remaining)
        ⟨s'.collector, s'.journal.report (.exhausted words s'.collector.cursor.remaining)⟩)

/-- How an operation ends that runs a pass over the `live` lowest roots of `t`. When the pass fails the
roots are `rs`. -/
inductive Passed {α : Type} (t : Session) (live : Nat) (rs : List Ref) : EStateM.Result Error Session α → Prop
  | failed {e : Error} {p : Pass} {s' : Session} : (t.collector.relocateLive live).2 = .error e p →
      Wrecked t.collector rs p s'.collector → Passed t live rs (.error e s')
  | completed {p : Pass} {reason : Reason} {m : Session} {out : EStateM.Result Error Session α} :
      (t.collector.relocateLive live).2 = .ok () p → Swept t live reason p m →
      (endState out).collector.frame = m.collector.frame → Passed t live rs out

namespace Passed

variable {α β : Type} {s t : Session} {live : Nat} {rs : List Ref}

theorem bind {x : Mutator α} {f : α → Mutator β} (h : Passed t live rs (x.run s))
    (hf : ∀ a, Keeps (Mutator.part Collector.frame) (f a)) : Passed t live rs ((x >>= f).run s) := by
  cases hr : x.run s with
  | error e s' =>
    rw [hr] at h
    rw [run_bind_error hr]
    cases h with
    | failed hp hw => exact .failed hp hw
    | completed hp hs he => exact .completed hp hs he
  | ok a s' =>
    rw [hr] at h
    rw [run_bind_ok hr]
    cases h with
    | completed hp hs he => exact .completed hp hs ((hf a s').trans he)

theorem run_error {out : EStateM.Result Error Session α} (h : Passed t live rs out) {e : Error} {p : Pass}
    (hp : (t.collector.relocateLive live).2 = .error e p) :
    ∃ s', out = .error e s' ∧ Wrecked t.collector rs p s'.collector := by
  cases h with
  | failed hp' hw =>
    rw [hp] at hp'
    cases hp'
    exact ⟨_, rfl, hw⟩
  | completed hp' hs he =>
    rw [hp] at hp'
    cases hp'

theorem phase_of_completed {out : EStateM.Result Error Session α} (h : Passed t live rs out) {p : Pass}
    (hp : (t.collector.relocateLive live).2 = .ok () p) : (endState out).collector.phase = .idle := by
  cases h with
  | failed hp' _ =>
    rw [hp] at hp'
    cases hp'
  | completed _ hs he => exact (congrArg Collector.Frame.phase he).trans hs.phase

theorem cycles_of_completed {out : EStateM.Result Error Session α} (h : Passed t live rs out) {p : Pass}
    (hp : (t.collector.relocateLive live).2 = .ok () p) : (endState out).collector.cycles = t.collector.cycles + 1 := by
  cases h with
  | failed hp' _ =>
    rw [hp] at hp'
    cases hp'
  | completed _ hs he => exact (congrArg Collector.Frame.cycles he).trans hs.cycles

/-- A completed pass exchanges the halves, a failed one does not. -/
theorem exchanges {out : EStateM.Result Error Session α} (h : Passed t live rs out) :
    (endState out).collector.shape = t.collector.shape ∧
    ((endState out).collector.cycles = t.collector.cycles ∧
        (endState out).collector.arena.active = t.collector.arena.active ∨
      (endState out).collector.cycles = t.collector.cycles + 1 ∧
        (endState out).collector.arena.active = t.collector.arena.inactive) := by
  obtain ⟨_, _, I⟩ := t.collector.relocateLive_invariant live
  cases h with
  | @failed e p s' hp hw =>
    rw [hp] at I
    refine ⟨Prod.ext ?_ ?_, Or.inl ⟨hw.cycles, ?_⟩⟩
    · exact (congrArg Arena.layout hw.arena).trans I.layout
    · exact congrArg Cursor.capacity hw.cursor
    · exact (congrArg Arena.active hw.arena).trans I.active
  | @completed p reason m _ hp hs he =>
    rw [hp] at I
    have hlayout : m.collector.arena.layout = t.collector.arena.layout :=
      (congrArg Arena.layout hs.arena).trans I.layout
    have hactive : m.collector.arena.active = t.collector.arena.inactive :=
      (congrArg Arena.active hs.arena).trans (congrArg Half.other I.active)
    have hcapacity : m.collector.cursor.capacity = t.collector.cursor.capacity := by
      rw [hs.cursor]
      rfl
    refine ⟨Prod.ext ?_ ?_, Or.inr ⟨?_, ?_⟩⟩
    · exact (congrArg Collector.Frame.layout he).trans hlayout
    · exact (congrArg Collector.Frame.capacity he).trans hcapacity
    · exact (congrArg Collector.Frame.cycles he).trans hs.cycles
    · exact (congrArg Collector.Frame.active he).trans hactive

end Passed

namespace Mutator

variable {α β : Type} {s t : Session} {words live : Nat} {refs : List Ref} {elements : List (Option Ref)}

/-! ## Allocations -/

theorem run_ensureRoom_fits (h : s.collector.cursor.fits words = true) : (ensureRoom words).run s = .ok () s := by
  unfold ensureRoom
  rw [run_collector_bind]
  dsimp only
  rw [if_pos h]
  rfl

/-- What follows the pass of an allocation: there is room now, or there is none. -/
def recheck (words : Nat) : Mutator Unit := do
  let c ← collector
  if c.cursor.fits words then
    return ()
  else
    report (.exhausted words c.cursor.remaining)
    throw (.outOfMemory words c.cursor.remaining)

theorem run_ensureRoom_full (hf : s.collector.cursor.fits words = false) : (ensureRoom words).run s =
    (runCycle s.collector.roots.top (.allocationFailure words s.collector.cursor.remaining) >>= fun _ =>
      recheck words).run (s.triggered words) := by
  unfold ensureRoom
  rw [run_collector_bind]
  dsimp only
  rw [if_neg (by rw [hf]; exact Bool.false_ne_true), run_emit_bind, run_update_bind]
  rfl

theorem run_ensureRoom (s : Session) (words : Nat) : Room s words ((ensureRoom words).run s) := by
  cases hf : s.collector.cursor.fits words with
  | true => rw [run_ensureRoom_fits hf]; exact .fits hf
  | false =>
    rw [run_ensureRoom_full hf]
    cases hr : (s.collector.relocateLive s.collector.roots.top).2 with
    | error e p =>
      obtain ⟨s', hrun, hw⟩ := run_runCycle_error (s := s.triggered words)
        (.allocationFailure words s.collector.cursor.remaining) hr
      rw [run_bind_error hrun]
      exact .failed hf hr hw
    | ok u p =>
      obtain ⟨s', hrun, hs⟩ := run_runCycle_ok (s := s.triggered words)
        (.allocationFailure words s.collector.cursor.remaining) hr
      rw [run_bind_ok hrun]
      unfold recheck
      rw [run_collector_bind]
      cases hf' : s'.collector.cursor.fits words with
      | true => exact .made hf hr hs hf'
      | false => exact .exhausted hf hr hs hf'

theorem passed_ensureRoom (h : s.collector.cursor.fits words = false) :
    Passed (s.triggered words) s.collector.roots.top (s.collector.rootsAfter s.collector.roots.top)
      ((ensureRoom words).run s) := by
  have hr := run_ensureRoom s words
  generalize (ensureRoom words).run s = out at hr
  cases hr with
  | fits hf => rw [h] at hf; cases hf
  | failed _ hp hw => exact .failed hp hw
  | made _ hp hs _ => exact .completed hp hs rfl
  | exhausted _ hp hs _ => exact .completed hp hs rfl

theorem run_allocate (hp : s.collector.phase ≠ .poisoned) (hw : words ≠ 0) :
    (allocate words).run s = (ensureRoom words >>= fun _ => handOut words).run s := by
  rw [allocate_eq, run_ensureUsable_bind hp, if_neg hw]

theorem passed_allocate (hp : s.collector.phase ≠ .poisoned) (h : s.collector.cursor.fits words = false) :
    Passed (s.triggered words) s.collector.roots.top (s.collector.rootsAfter s.collector.roots.top)
      ((allocate words).run s) := by
  rw [run_allocate hp (Cursor.ne_zero_of_not_fits h)]
  exact (passed_ensureRoom h).bind fun _ => keeps_frame_handOut words

/-- An allocation that fits changes nothing of the frame. -/
theorem frame_allocate (h : s.collector.cursor.fits words = true) :
    part Collector.frame (endState ((allocate words).run s)) = part Collector.frame s := by
  rw [allocate_eq]
  by_cases hp : s.collector.phase = .poisoned
  · rw [run_ensureUsable_poisoned hp]
    rfl
  rw [run_ensureUsable_bind hp]
  by_cases hw : words = 0
  · rw [if_pos hw]
    rfl
  rw [if_neg hw, run_bind_ok (run_ensureRoom_fits h)]
  exact keeps_frame_handOut words s

theorem passed_allocScalar (hp : s.collector.phase ≠ .poisoned) (tag : Tag) (second : Word)
    (h : s.collector.cursor.fits headerWords = false) :
    Passed (s.triggered headerWords) s.collector.roots.top (s.collector.rootsAfter s.collector.roots.top)
      ((allocScalar tag second).run s) :=
  (passed_allocate hp h).bind fun r => (keeps_frame_fill r _).bind fun _ => .pure _

theorem frame_allocScalar (tag : Tag) (second : Word) (h : s.collector.cursor.fits headerWords = true) :
    part Collector.frame (endState ((allocScalar tag second).run s)) = part Collector.frame s :=
  Keeps.run_bind (frame_allocate h) fun r => (keeps_frame_fill r _).bind fun _ => .pure r

theorem run_collect (hp : s.collector.phase ≠ .poisoned) (hl : live ≤ s.collector.roots.top) :
    (collect live).run s = (runCycle live .explicit).run s := by
  unfold collect
  rw [run_ensureUsable_bind hp, run_collector_bind]
  dsimp only
  rw [if_neg (Nat.not_lt.mpr hl)]

theorem passed_collect (hp : s.collector.phase ≠ .poisoned) (hl : live ≤ s.collector.roots.top) :
    Passed s live (s.collector.rootsAfter live) ((collect live).run s) := by
  rw [run_collect hp hl]
  cases hr : (s.collector.relocateLive live).2 with
  | error e p =>
    obtain ⟨s', hrun, hw⟩ := run_runCycle_error .explicit hr
    rw [hrun]
    exact .failed hr hw
  | ok u p =>
    obtain ⟨s', hrun, hs⟩ := run_runCycle_ok .explicit hr
    rw [hrun]
    exact .completed hr hs rfl

theorem run_collect_refused (hp : s.collector.phase ≠ .poisoned) (hl : s.collector.roots.top < live) :
    (collect live).run s = .error (.invalidArgument (.liveRoots live s.collector.roots.top)) s := by
  unfold collect
  rw [run_ensureUsable_bind hp, run_collector_bind]
  dsimp only
  rw [if_pos hl]
  rfl

theorem frame_collect (hl : s.collector.roots.top < live) :
    part Collector.frame (endState ((collect live).run s)) = part Collector.frame s := by
  by_cases hp : s.collector.phase = .poisoned
  · unfold collect
    rw [run_ensureUsable_poisoned hp]
    rfl
  · rw [run_collect_refused hp hl]
    rfl

/-! ## Vectors -/

/-- The slots of a new vector hold what is taken from the list, and are as many as asked for. -/
theorem run_mapM_takeNext_mem : ∀ (slots : List (Option Ref)) (rs : List Ref),
    ((slots.mapM takeNext).run rs).1.length = slots.length ∧
      (∀ r, some r ∈ ((slots.mapM takeNext).run rs).1 → r ∈ rs)
  | [], _ => ⟨rfl, nofun⟩
  | none :: slots, rs => by
    obtain ⟨hl, hm⟩ := run_mapM_takeNext_mem slots rs
    rw [List.mapM_cons, StateT.run_bind]
    refine ⟨congrArg Nat.succ hl, fun r hr => ?_⟩
    rcases List.mem_cons.mp hr with h | h
    · cases h
    · exact hm r h
  | some _ :: slots, rs => by
    obtain ⟨hl, hm⟩ := run_mapM_takeNext_mem slots rs.tail
    rw [List.mapM_cons, StateT.run_bind]
    refine ⟨congrArg Nat.succ hl, fun r hr => ?_⟩
    rcases List.mem_cons.mp hr with h | h
    · exact List.mem_of_mem_head? h.symm
    · exact List.mem_of_mem_tail (hm r h)

/-- References that stand for the elements in order, nulls apart, come to stand in their slots. -/
theorem map_refill {α γ : Type} (f : α → Ref) {h : Ref → γ} {k : α → γ} : ∀ {elements : List (Option α)} {rs : List Ref},
    rs.map h = (elements.filterMap id).map k →
    (refill (elements.map (Option.map f)) rs).map (Option.map h) = elements.map (Option.map k)
  | [], _, _ => rfl
  | none :: elements, rs, hrs => by
    have ih : (refill (elements.map (Option.map f)) rs).map (Option.map h) = elements.map (Option.map k) :=
      map_refill f hrs
    unfold refill at ih ⊢
    rw [List.map_cons, List.mapM_cons, StateT.run_bind]
    exact congrArg (none :: ·) ih
  | some a :: elements, [], hrs => nomatch hrs
  | some a :: elements, r :: rs, hrs => by
    obtain ⟨hhead, htail⟩ := List.cons.inj hrs
    have ih : (refill (elements.map (Option.map f)) rs).map (Option.map h) = elements.map (Option.map k) :=
      map_refill f htail
    unfold refill at ih ⊢
    rw [List.map_cons, List.mapM_cons, StateT.run_bind]
    exact congrArg₂ List.cons (congrArg some hhead) ih

/-- The allocation of a vector whose elements are on the root stack above `base`. -/
def buildVector (base : Nat) (elements : List (Option Ref)) : Mutator Ref := do
  let allocated ← observing (allocate (Header.vectorWords elements.length))
  let rooted := (← collector).roots.toList.drop base
  update fun d => { d with roots := d.roots.truncate base }
  let r ← allocated
  let slots := (refill elements rooted).map Ref.slotWord
  fill r (Tag.vector.word :: UInt64.ofNat elements.length :: slots)
  return r

theorem allocVector_eq (elements : List (Option Ref)) : allocVector elements = (do
    ensureUsable
    let c ← collector
    let refs := elements.filterMap id
    refs.forM fun r => do
      let _ ← c.checkObject r
    pushAll refs
    buildVector c.roots.top elements) := rfl

/-- What depends on neither the heap nor the roots is left by a vector as by its allocation. -/
theorem endState_buildVector {P : Session → β} (harena : ∀ s arena, P { s with collector := { s.collector with arena } } = P s)
    (hroots : ∀ s roots, P { s with collector := { s.collector with roots } } = P s) (base : Nat)
    (elements : List (Option Ref)) (s : Session) : P (endState ((buildVector base elements).run s)) =
      P (endState ((allocate (Header.vectorWords elements.length)).run s)) := by
  have ho : P (endState ((observing (allocate (Header.vectorWords elements.length))).run s)) =
      P (endState ((allocate (Header.vectorWords elements.length)).run s)) := by
    rw [run_observing, endState_ok]
  refine Keeps.run_bind ho fun allocated => ?_
  refine keeps_collector.bind fun c => (keeps_update fun s => hroots s _).bind fun _ => (Keeps.lift _).bind fun r => ?_
  exact (keeps_fill harena r _).bind fun _ => .pure _

theorem run_buildVector_ok {base : Nat} {r : Ref} (h : (allocate (Header.vectorWords elements.length)).run s = .ok r t) :
    part Collector.frame (endState ((buildVector base elements).run s)) = part Collector.frame t := by
  unfold buildVector
  rw [run_observing_bind, h, run_collector_bind]
  dsimp only [endState, answer]
  rw [run_update_bind, run_liftM_bind rfl]
  exact (((keeps_frame_fill r _).bind fun _ => .pure r) _)

theorem run_buildVector_error {base : Nat} {e : Error}
    (h : (allocate (Header.vectorWords elements.length)).run s = .error e t) :
    (buildVector base elements).run s =
      .error e { t with collector := { t.collector with roots := t.collector.roots.truncate base } } := by
  unfold buildVector
  rw [run_observing_bind, h, run_collector_bind]
  dsimp only [endState, answer]
  rw [run_update_bind, run_liftM_bind_error rfl]

theorem passed_buildVector (hp : s.collector.phase ≠ .poisoned) (base : Nat)
    (h : s.collector.cursor.fits (Header.vectorWords elements.length) = false) :
    Passed (s.triggered (Header.vectorWords elements.length)) s.collector.roots.top
      ((s.collector.rootsAfter s.collector.roots.top).take base) ((buildVector base elements).run s) := by
  have ha := passed_allocate hp h
  cases hr : (allocate (Header.vectorWords elements.length)).run s with
  | ok r t =>
    rw [hr] at ha
    cases ha with
    | completed hpass hs he => exact .completed hpass hs ((run_buildVector_ok hr).trans he)
  | error e t =>
    rw [hr] at ha
    rw [run_buildVector_error hr]
    cases ha with
    | failed hpass hw =>
      refine .failed hpass ⟨hw.phase, hw.arena, hw.cursor, hw.cycles, hw.stats, ?_⟩
      rw [RootStack.toList_truncate, hw.roots]
    | completed hpass hs he => exact .completed hpass hs he

theorem frame_buildVector (base : Nat) (h : s.collector.cursor.fits (Header.vectorWords elements.length) = true) :
    part Collector.frame (endState ((buildVector base elements).run s)) = part Collector.frame s := by
  have ha := frame_allocate (s := s) h
  cases hr : (allocate (Header.vectorWords elements.length)).run s with
  | ok r t =>
    rw [hr] at ha
    exact (run_buildVector_ok hr).trans ha
  | error e t =>
    rw [hr] at ha
    rw [run_buildVector_error hr]
    exact ha

end Mutator

/-! ## Elements as roots -/

/-- The session `t` is `s` with references put on the root stack. -/
structure Pushed (s : Session) (refs : List Ref) (t : Session) : Prop where
  rest : t = { s with collector := { s.collector with roots := t.collector.roots } }
  roots : t.collector.roots.toList = s.collector.roots.toList ++ refs
  capacity : t.collector.roots.capacity = s.collector.roots.capacity

/-- The session `t` is `s` with the elements of a vector, all of them objects, on the root stack. -/
structure Rooted (s : Session) (elements : List (Option Ref)) (t : Session) : Prop
    extends Pushed s (elements.filterMap id) t where
  objects : ∀ r ∈ elements.filterMap id, ∃ found, s.collector.checkObject r = .ok found

namespace Pushed

variable {s t t' : Session} {refs : List Ref}

theorem unique (x : Pushed s refs t) (y : Pushed s refs t') : t' = t := by
  have h : t'.collector.roots = t.collector.roots :=
    RootStack.eq_of_toList (y.roots.trans x.roots.symm) (y.capacity.trans x.capacity.symm)
  exact y.rest.trans (h ▸ x.rest.symm)

theorem journal (x : Pushed s refs t) : t.journal = s.journal := by rw [x.rest]

theorem arena (x : Pushed s refs t) : t.collector.arena = s.collector.arena := by rw [x.rest]

theorem cursor (x : Pushed s refs t) : t.collector.cursor = s.collector.cursor := by rw [x.rest]

theorem stats (x : Pushed s refs t) : t.collector.stats = s.collector.stats := by rw [x.rest]

theorem phase (x : Pushed s refs t) : t.collector.phase = s.collector.phase := by rw [x.rest]

theorem cycles (x : Pushed s refs t) : t.collector.cycles = s.collector.cycles := by rw [x.rest]

theorem wellFormed (x : Pushed s refs t) (hw : s.collector.WellFormed) : t.collector.WellFormed := by
  rw [x.rest]
  exact hw

theorem usable (x : Pushed s refs t) (hp : s.collector.phase ≠ .poisoned) : t.collector.phase ≠ .poisoned := by
  rw [x.rest]
  exact hp

theorem top_le (x : Pushed s refs t) : s.collector.roots.top + refs.length ≤ s.collector.roots.capacity := by
  have h1 := congrArg List.length x.roots
  have h2 : t.collector.roots.toList.length ≤ t.collector.roots.capacity := t.collector.roots.size_le
  have h3 : s.collector.roots.toList.length = s.collector.roots.top := rfl
  have h4 := x.capacity
  rw [List.length_append] at h1
  omega

end Pushed

namespace Mutator

variable {s t : Session} {refs : List Ref} {elements : List (Option Ref)}

/-- References are put on the root stack one after another, until it is full. -/
theorem run_pushSlots : ∀ (refs : List Ref) (s : Session),
    (∃ t, (refs.forM pushSlot).run s = .ok () t ∧ Pushed s refs t) ∨
    s.collector.roots.capacity < s.collector.roots.top + refs.length ∧ ∃ t pushed,
      (refs.forM pushSlot).run s = .error (.rootStackOverflow s.collector.roots.capacity) t ∧
      t.journal = s.journal.report (.rootsFull s.collector.roots.capacity) ∧
      t.collector = { s.collector with roots := t.collector.roots } ∧
      t.collector.roots.toList = s.collector.roots.toList ++ pushed ∧
      t.collector.roots.capacity = s.collector.roots.capacity
  | [], s => Or.inl ⟨s, rfl, rfl, (List.append_nil _).symm, rfl⟩
  | r :: refs, s => by
    show (∃ t, (pushSlot r >>= fun _ => refs.forM pushSlot).run s = _ ∧ _) ∨
      _ ∧ ∃ t pushed, (pushSlot r >>= fun _ => refs.forM pushSlot).run s = _ ∧ _
    cases hp : s.collector.roots.push r with
    | error e =>
      obtain ⟨hfull, rfl⟩ := RootStack.push_eq_error_iff.mp hp
      have hrun : (pushSlot r).run s = .error (.rootStackOverflow s.collector.roots.capacity)
          { s with journal := s.journal.report (.rootsFull s.collector.roots.capacity) } := by
        unfold pushSlot
        rw [run_collector_bind, hp]
        rfl
      refine Or.inr ⟨?_, _, [], run_bind_error hrun _, rfl, rfl, (List.append_nil _).symm, rfl⟩
      rw [List.length_cons]
      omega
    | ok roots =>
      obtain ⟨hl, hc⟩ := RootStack.toList_push hp
      have hrun : (pushSlot r).run s = .ok () { s with collector := { s.collector with roots } } := by
        unfold pushSlot
        rw [run_collector_bind, hp]
        rfl
      rw [run_bind_ok hrun, ← hc]
      rcases run_pushSlots refs { s with collector := { s.collector with roots } } with
        ⟨t, ht, x⟩ | ⟨hlt, t, pushed, ht, hj, hrest, hroots, hcap⟩
      · refine Or.inl ⟨t, ht, x.rest, ?_, x.capacity.trans hc⟩
        rw [x.roots, hl, List.append_assoc]
        rfl
      · refine Or.inr ⟨?_, t, r :: pushed, ht, hj, hrest, ?_, hcap⟩
        · have h1 := congrArg List.length hl
          have h2 : roots.toList.length = roots.top := rfl
          have h3 : s.collector.roots.toList.length = s.collector.roots.top := rfl
          rw [List.length_append, List.length_singleton] at h1
          rw [List.length_cons]
          dsimp only at hlt
          omega
        · rw [hroots, hl, List.append_assoc]
          rfl

/-- References go on the root stack all together; when there is no room for all, it stays as it was. -/
theorem run_pushAll_or (refs : List Ref) (s : Session) :
    (∃ t, (pushAll refs).run s = .ok () t ∧ Pushed s refs t) ∨
    s.collector.roots.capacity < s.collector.roots.top + refs.length ∧
      (pushAll refs).run s = .error (.rootStackOverflow s.collector.roots.capacity)
        { s with journal := s.journal.report (.rootsFull s.collector.roots.capacity) } := by
  unfold pushAll
  rw [run_collector_bind, run_observing_bind]
  rcases run_pushSlots refs s with ⟨t, hrun, x⟩ | ⟨hlt, t, pushed, hrun, hj, hrest, hroots, hcap⟩
  · rw [hrun]
    exact Or.inl ⟨t, rfl, x⟩
  · rw [hrun]
    have htop : s.collector.roots.toList.length = s.collector.roots.top := rfl
    have hback : t.collector.roots.truncate s.collector.roots.top = s.collector.roots := by
      refine RootStack.eq_of_toList ?_ hcap
      rw [RootStack.toList_truncate, hroots, ← htop, List.take_left]
    have hend : ({ t.collector with roots := t.collector.roots.truncate s.collector.roots.top } : Collector) =
        s.collector := by rw [hback, hrest]
    refine Or.inr ⟨hlt, ?_⟩
    show EStateM.Result.error _ (⟨{ t.collector with roots := t.collector.roots.truncate s.collector.roots.top },
      t.journal⟩ : Session) = _
    rw [hend, hj]

theorem run_pushAll (x : Pushed s refs t) : (pushAll refs).run s = .ok () t := by
  rcases run_pushAll_or refs s with ⟨t', hrun, y⟩ | ⟨hlt, _⟩
  · rw [hrun, x.unique y]
  · exact absurd x.top_le (Nat.not_le.mpr hlt)

theorem pushed_of_pushAll (h : (pushAll refs).run s = .ok () t) : Pushed s refs t := by
  rcases run_pushAll_or refs s with ⟨t', hrun, y⟩ | ⟨_, hrun⟩
  · rw [hrun] at h
    cases h
    exact y
  · rw [hrun] at h
    cases h

theorem run_checks (c : Collector) (s : Session) : ∀ refs : List Ref,
    (∀ r ∈ refs, ∃ found, c.checkObject r = .ok found) ∧ (refs.forM fun r => do
      let _ ← (liftM (c.checkObject r) : Mutator (Location × Header))).run s = .ok () s ∨
    ∃ r ∈ refs, ∃ e, c.checkObject r = .error e ∧ (refs.forM fun r => do
      let _ ← (liftM (c.checkObject r) : Mutator (Location × Header))).run s = .error e s
  | [] => Or.inl ⟨nofun, rfl⟩
  | r :: refs => by
    cases hc : c.checkObject r with
    | error e =>
      refine Or.inr ⟨r, List.mem_cons_self .., e, hc, ?_⟩
      exact run_bind_error (run_liftM_bind_error hc _ s) _
    | ok found =>
      have hrun : ((liftM (c.checkObject r) : Mutator (Location × Header)) >>= fun _ => pure ()).run s = .ok () s :=
        run_liftM_bind hc _ s
      rcases run_checks c s refs with ⟨ho, h⟩ | ⟨r', hr', e, hc', h⟩
      · refine Or.inl ⟨?_, (run_bind_ok hrun _).trans h⟩
        intro r' hr'
        rcases List.mem_cons.mp hr' with rfl | hr'
        · exact ⟨found, hc⟩
        · exact ho r' hr'
      · exact Or.inr ⟨r', List.mem_cons_of_mem _ hr', e, hc', (run_bind_ok hrun _).trans h⟩

theorem run_allocVector (hp : s.collector.phase ≠ .poisoned) (x : Rooted s elements t) :
    (allocVector elements).run s = (buildVector s.collector.roots.top elements).run t := by
  rw [allocVector_eq, run_ensureUsable_bind hp, run_collector_bind]
  rcases run_checks s.collector s (elements.filterMap id) with ⟨_, hrun⟩ | ⟨r, hr, e, hc, _⟩
  · rw [run_bind_ok hrun, run_bind_ok (run_pushAll x.toPushed)]
  · obtain ⟨found, hf⟩ := x.objects r hr
    rw [hc] at hf
    cases hf

/-- A vector is allocated without a pass, or its elements are rooted and there is no room for it. -/
theorem frame_allocVector (hp : s.collector.phase ≠ .poisoned) (h : ∀ t, Rooted s elements t →
    t.collector.cursor.fits (Header.vectorWords elements.length) = true) :
    part Collector.frame (endState ((allocVector elements).run s)) = part Collector.frame s := by
  rw [allocVector_eq, run_ensureUsable_bind hp, run_collector_bind]
  rcases run_checks s.collector s (elements.filterMap id) with ⟨ho, hrun⟩ | ⟨_, _, e, _, hrun⟩
  · rw [run_bind_ok hrun]
    have hk := keeps_pushAll (P := part Collector.frame) (fun _ _ => rfl) (fun _ _ => rfl) (elements.filterMap id) s
    cases hr : (pushAll (elements.filterMap id)).run s with
    | error e t =>
      rw [hr] at hk
      rw [run_bind_error hr]
      exact hk
    | ok u t =>
      rw [hr] at hk
      rw [run_bind_ok hr]
      exact (frame_buildVector _ (h t ⟨pushed_of_pushAll hr, ho⟩)).trans hk
  · rw [run_bind_error hrun]
    rfl

end Mutator

end Semispace

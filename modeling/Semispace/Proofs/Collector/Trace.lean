import Semispace.Proofs.Collector.Atomicity
import Semispace.Proofs.Collector.Stale

/-!
# What the events tell

The events given to a logger are the history of the passes, block after block (`events_tell_passes`).
An operation that runs no pass tells nothing; one that runs a pass tells what its cycle tells, since all
that follows the cycle is silent. The halves alternate with the completed passes, and a pass that fails
is the last.
-/

namespace Semispace

/-! ## Silent steps -/

/-- The events given to the logger so far. -/
def Session.events (s : Session) : List Event := s.journal.events

namespace Mutator

variable {s : Session} {n live : Nat} {elements : List (Option Ref)}

theorem events_report {m : Notice} (h : m.event? = none) (s : Session) :
    Session.events { s with journal := s.journal.report m } = s.events := by
  simp [Session.events, Journal.events_report, h]

theorem keeps_events_recheck (n : Nat) : Keeps Session.events (recheck n) := by
  refine keeps_collector.bind fun c => ?_
  split
  · exact .pure _
  · exact (keeps_report (events_report rfl)).bind fun _ => .throw _

theorem events_allocate_fits (hf : s.collector.cursor.fits n = true) :
    (endState ((allocate n).run s)).events = s.events := by
  rw [allocate_eq]
  by_cases hp : s.collector.phase = .poisoned
  · rw [run_ensureUsable_poisoned hp]
    rfl
  rw [run_ensureUsable_bind hp]
  by_cases hn : n = 0
  · rw [if_pos hn]
    rfl
  rw [if_neg hn, run_bind_ok (run_ensureRoom_fits hf)]
  exact keeps_handOut (P := Session.events) (fun _ _ => rfl) n s

theorem events_allocate (hp : s.collector.phase ≠ .poisoned) (hf : s.collector.cursor.fits n = false) :
    (endState ((allocate n).run s)).events = (endState ((runCycle s.collector.roots.top
      (.allocationFailure n s.collector.cursor.remaining)).run (s.triggered n))).events := by
  rw [run_allocate hp (Cursor.ne_zero_of_not_fits hf)]
  refine Keeps.run_bind ?_ fun _ => keeps_handOut (fun _ _ => rfl) n
  rw [run_ensureRoom_full hf]
  exact Keeps.run_bind rfl fun _ => keeps_events_recheck n

/-- A cycle whose pass fails tells that it started, and no more. -/
theorem events_runCycle_error {e : Error} {p : Pass} (reason : Reason)
    (h : (s.collector.relocateLive live).2 = .error e p) : (endState ((runCycle live reason).run s)).events =
      s.events ++ [.cycleStart (s.collector.cycles + 1) reason.message live] := by
  obtain ⟨s₁, hrun, _⟩ := run_runPass_error (s := s.collecting live reason) h
  have hpass : s₁.events = (s.collecting live reason).events := by
    have hk := keeps_notices_runPass Notice.event? (fun _ => rfl) (fun _ _ => rfl) live (s.collecting live reason)
    rw [hrun] at hk
    exact hk
  have ho : (observing (runPass live)).run (s.collecting live reason) = .ok (.error e) s₁ := by
    rw [run_observing, hrun]
    rfl
  obtain ⟨s₂, hfail, hev⟩ : ∃ s₂, (runCycle live reason).run s = .error e s₂ ∧ s₂.events = s₁.events := by
    unfold runCycle
    rw [run_collector_bind]
    dsimp only
    rw [run_update_bind, run_emit_bind]
    exact ⟨_, (run_bind_ok ho _).trans rfl, events_report rfl s₁⟩
  rw [hfail, endState_error, hev, hpass]
  exact Logger.events_record ..

end Mutator

/-! ## Passes and their events -/

namespace Action

/-- The words that the operation asks for, if it is an allocation. -/
def words? : Action → Option Nat
  | allocate words => some words
  | allocInt _ => some headerWords
  | allocBool _ => some headerWords
  | allocVector elements => some (Header.vectorWords elements.length)
  | _ => none

/-- Why a pass of the operation runs. -/
def reason (x : Action) (c : Collector) : Reason :=
  match x.words? with
  | some words => .allocationFailure words c.cursor.remaining
  | none => .explicit

end Action

/-- What is told before a pass: the allocation that there was no room for. -/
def Reason.events : Reason → List Event
  | explicit => []
  | allocationFailure requested available => [.allocationFailure requested available]

/-- The active half after `k` passes, the low one being the first. -/
def Half.afterPasses (k : Nat) : Half := if k % 2 = 1 then high else low

theorem Half.other_afterPasses (k : Nat) : (afterPasses k).other = afterPasses (k + 1) := by
  unfold afterPasses
  rcases Nat.mod_two_eq_zero_or_one k with h | h
  · rw [if_neg (by omega), if_pos (by omega)]
    rfl
  · rw [if_pos h, if_neg (by omega)]
    rfl

/-- A pass: why it ran, over how many roots, the words in use before it, and how many objects of how
many words it kept if it completed. -/
structure PassRecord where
  reason : Reason
  liveRoots : Nat
  wordsBefore : Nat
  kept : Option (Nat × Nat)

namespace PassRecord

/-- The pass over the `live` lowest roots of `t`. -/
def of (t : Session) (live : Nat) (reason : Reason) : PassRecord where
  reason
  liveRoots := live
  wordsBefore := t.collector.usedWords
  kept := (answer ((Mutator.runCycle live reason).run t)).toOption.map fun y => (y.objectsCopied, y.wordsAfter)

/-- What is told of a pass that completes, the `k`-th over halves of `space` words. -/
def completion (space k wordsBefore : Nat) : Nat × Nat → List Event
  | (objects, words) => [
    .relocateStats objects words objects,
    .halvesSwapped (Half.afterPasses k).name (Half.afterPasses k).other.name,
    .cycleEnd k Pause.none.millis words (wordsBefore - words),
    .heapStats words space (words.toFloat / space.toFloat)]

/-- What is told of the `k`-th pass over halves of `space` words. -/
def events (x : PassRecord) (space k : Nat) : List Event :=
  x.reason.events ++ .cycleStart k x.reason.message x.liveRoots ::
    (x.kept.map (completion space k x.wordsBefore)).getD []

end PassRecord

/-- What is told of a cycle, that it starts and how it is completed. -/
theorem Mutator.events_runCycle {t : Session} (hw : t.collector.WellFormed)
    (ha : t.collector.arena.active = Half.afterPasses t.collector.cycles) (live : Nat) (reason : Reason) :
    (endState ((runCycle live reason).run t)).events = t.events ++
      .cycleStart (t.collector.cycles + 1) reason.message live :: ((PassRecord.of t live reason).kept.map
        (PassRecord.completion t.collector.arena.spaceWords (t.collector.cycles + 1) t.collector.usedWords)).getD [] := by
  unfold PassRecord.of
  cases hr : (t.collector.relocateLive live).2 with
  | error e p =>
    obtain ⟨s', hrun, _⟩ := run_runCycle_error reason hr
    rw [events_runCycle_error reason hr, hrun]
    rfl
  | ok u p =>
    obtain ⟨s', hrun, hs⟩ := run_runCycle_ok reason hr
    obtain ⟨hw', htop, ms, I, _⟩ := hs.copied hw hr
    have hentries : p.table.size = p.copier.objectsCopied := by
      have htable := congrArg List.length I.table
      rw [List.length_map] at htable
      exact htable.trans I.copies.symm
    have hspace : s'.collector.arena.spaceWords = t.collector.arena.spaceWords := by
      rw [hs.arena]
      exact I.spaceWords
    have hactive : p.arena.swap.active = Half.afterPasses (t.collector.cycles + 1) := by
      rw [← Half.other_afterPasses, ← ha]
      exact I.destination
    have hinactive : p.arena.swap.inactive = (Half.afterPasses (t.collector.cycles + 1)).other :=
      congrArg Half.other hactive
    have hused : s'.collector.usedWords = p.cursor.top := htop
    have hpart : s'.collector.utilization = p.cursor.top.toFloat / t.collector.arena.spaceWords.toFloat := by
      unfold Collector.utilization
      rw [hw', htop, hspace]
    rw [hrun]
    refine hs.events.trans ?_
    rw [hactive, hinactive, hused, hspace, hpart, hentries]
    rfl

namespace Action

variable {s t : Session} {live : Nat} {x : Action}

theorem Starts.events (h : x.Starts s t live) : t.events = s.events ++ (x.reason t.collector).events := by
  cases h with
  | allocate _ _ => exact Logger.events_record ..
  | allocInt _ _ => exact Logger.events_record ..
  | allocBool _ _ => exact Logger.events_record ..
  | @allocVector elements t _ hr _ =>
    have hj : t.events = s.events := congrArg Journal.events hr.journal
    rw [← hj]
    exact Logger.events_record ..
  | collect _ _ => exact (List.append_nil _).symm

/-- All that is told by an operation that runs a pass is told by its cycle. -/
theorem Starts.events_perform (h : x.Starts s t live) : (endState (x.perform.run s)).events =
    (endState ((Mutator.runCycle live (x.reason t.collector)).run t)).events := by
  cases h with
  | allocate hp hf => exact Keeps.run_bind (Mutator.events_allocate hp hf) fun _ => .pure _
  | @allocInt v hp hf =>
    have hscalar := Mutator.endState_allocScalar (P := Session.events) (fun _ _ => rfl) .int v.toUInt64 s
    exact Keeps.run_bind (hscalar.trans (Mutator.events_allocate hp hf)) fun _ => .pure _
  | @allocBool v hp hf =>
    have hscalar := Mutator.endState_allocScalar (P := Session.events) (fun _ _ => rfl) .bool (if v then 1 else 0) s
    exact Keeps.run_bind (hscalar.trans (Mutator.events_allocate hp hf)) fun _ => .pure _
  | @allocVector elements t hp hr hf =>
    refine Keeps.run_bind ?_ fun _ => .pure _
    rw [Mutator.run_allocVector hp hr]
    have hbuild := Mutator.endState_buildVector (P := Session.events) (fun _ _ => rfl) (fun _ _ => rfl)
      s.collector.roots.top elements t
    exact hbuild.trans (Mutator.events_allocate (hr.usable hp) hf)
  | collect hp hl =>
    refine Keeps.run_bind ?_ fun _ => .pure _
    rw [Mutator.run_collect hp hl]
    rfl

theorem events_of_not_starts (h : ∀ t live, ¬ x.Starts s t live) : (endState (x.perform.run s)).events = s.events := by
  by_cases hp : s.collector.phase = .poisoned
  · by_cases hx : x.Mutates
    · rw [run_poisoned hp hx]
      rfl
    · cases x with
      | updateLogger f => rfl
      | _ => exact absurd trivial hx
  have hroots : ∀ (s : Session) (n : Nat), Session.events { s with journal := s.journal.report (.rootsFull n) } =
      s.events := fun s _ => Mutator.events_report rfl s
  cases x with
  | allocate words =>
    have hf := eq_true_of_ne_false fun hf => h _ _ (.allocate hp hf)
    exact Keeps.run_bind (Mutator.events_allocate_fits hf) fun _ => .pure _
  | allocInt v =>
    have hf := eq_true_of_ne_false fun hf => h _ _ (.allocInt hp hf)
    have hscalar := Mutator.endState_allocScalar (P := Session.events) (fun _ _ => rfl) .int v.toUInt64 s
    exact Keeps.run_bind (hscalar.trans (Mutator.events_allocate_fits hf)) fun _ => .pure _
  | allocBool v =>
    have hf := eq_true_of_ne_false fun hf => h _ _ (.allocBool hp hf)
    have hscalar := Mutator.endState_allocScalar (P := Session.events) (fun _ _ => rfl) .bool (if v then 1 else 0) s
    exact Keeps.run_bind (hscalar.trans (Mutator.events_allocate_fits hf)) fun _ => .pure _
  | allocVector elements =>
    refine Keeps.run_bind ?_ fun _ => .pure _
    rcases Mutator.run_allocVector_or hp elements with ⟨_, _, _, _, hrun⟩ | ⟨_, ⟨_, hrun⟩ | ⟨t, hr, hrun⟩⟩
    · rw [hrun]
      rfl
    · rw [hrun]
      exact hroots s _
    · have hf : t.collector.cursor.fits (Header.vectorWords elements.length) = true :=
        eq_true_of_ne_false fun hf => h _ _ (.allocVector hp hr hf)
      have hbuild := Mutator.endState_buildVector (P := Session.events) (fun _ _ => rfl) (fun _ _ => rfl)
        s.collector.roots.top elements t
      rw [hrun]
      exact hbuild.trans ((Mutator.events_allocate_fits hf).trans (congrArg Journal.events hr.journal))
  | vectorSet r i value => exact Mutator.keeps_vectorSet (P := Session.events) (fun _ _ => rfl) r i value s
  | writeWord r i w => exact Mutator.keeps_writeWord (P := Session.events) (fun _ _ => rfl) r i w s
  | rootPush r => exact Mutator.keeps_rootPush (P := Session.events) (fun _ _ => rfl) hroots r s
  | rootPop => exact ((Mutator.keeps_rootPop (P := Session.events) fun _ _ => rfl).bind fun _ => .pure _) s
  | collect live =>
    have hl : s.collector.roots.top < live := Nat.not_le.mp fun hl => h _ _ (.collect hp hl)
    refine Keeps.run_bind ?_ fun _ => .pure _
    rw [Mutator.run_collect_refused hp hl]
    rfl
  | updateLogger f => rfl

end Action

/-! ## Histories -/

/-- A turn of a run: an operation on the collector, or stores of the program that leave other words in
memory. -/
inductive Turn
  | operation (x : Action)
  | stores (memory : Memory)

def Turn.perform (s : Session) : Turn → Session
  | operation x => endState (x.perform.run s)
  | stores memory => { s with collector := { s.collector with arena := { s.collector.arena with memory } } }

def Session.through (s : Session) (ys : List Turn) : Session := ys.foldl Turn.perform s

/-- The passes of a run from `s` on, in order. -/
inductive Chronicle : Session → List Turn → List PassRecord → Prop
  | nil {s : Session} : Chronicle s [] []
  | quiet {s : Session} {x : Action} {ys : List Turn} {xs : List PassRecord} : (∀ t live, ¬ x.Starts s t live) →
      Chronicle (endState (x.perform.run s)) ys xs → Chronicle s (.operation x :: ys) xs
  | pass {s t : Session} {live : Nat} {x : Action} {ys : List Turn} {xs : List PassRecord} : x.Starts s t live →
      Chronicle (endState (x.perform.run s)) ys xs →
      Chronicle s (.operation x :: ys) (.of t live (x.reason t.collector) :: xs)
  | stores {s : Session} {memory : Memory} {ys : List Turn} {xs : List PassRecord} :
      Chronicle ((Turn.stores memory).perform s) ys xs → Chronicle s (.stores memory :: ys) xs

/-- The half that is active is the one for the passes completed. -/
structure Session.InStep (s : Session) : Prop where
  wellFormed : s.collector.WellFormed
  active : s.collector.arena.active = Half.afterPasses s.collector.cycles

namespace Session.InStep

variable {s : Session}

theorem perform (h : s.InStep) (y : Turn) : (y.perform s).InStep := by
  cases y with
  | stores memory => exact ⟨h.wellFormed, h.active⟩
  | operation x =>
    obtain ⟨hshape, hx⟩ := x.exchanges s
    refine ⟨h.wellFormed.of_shape hshape, ?_⟩
    show (endState (x.perform.run s)).collector.arena.active =
      Half.afterPasses (endState (x.perform.run s)).collector.cycles
    rcases hx with ⟨hc, ha⟩ | ⟨hc, ha⟩
    · rw [ha, hc]
      exact h.active
    · rw [ha, hc, ← Half.other_afterPasses, ← h.active]
      rfl

theorem through (h : s.InStep) (ys : List Turn) : (s.through ys).InStep := by
  induction ys generalizing s with
  | nil => exact h
  | cons y ys ih => exact ih (h.perform y)

end Session.InStep

theorem PassRecord.kept_eq_none_iff {t : Session} {live : Nat} {reason : Reason} :
    (of t live reason).kept = none ↔ ∃ e p, (t.collector.relocateLive live).2 = .error e p := by
  unfold of
  cases hr : (t.collector.relocateLive live).2 with
  | error e p =>
    obtain ⟨s', hrun, _⟩ := Mutator.run_runCycle_error reason hr
    simp [hrun, answer, Except.toOption]
  | ok u p =>
    obtain ⟨s', hrun, _⟩ := Mutator.run_runCycle_ok reason hr
    simp [hrun, answer, Except.toOption]

theorem Action.Starts.told {s t : Session} {live : Nat} {x : Action} (h : x.Starts s t live) (hs : s.InStep) :
    let s' := endState (x.perform.run s)
    let y := PassRecord.of t live (x.reason t.collector)
    s'.events = s.events ++ y.events s.collector.arena.spaceWords (s.collector.cycles + 1) ∧
      s'.collector.cycles = s.collector.cycles + (if y.kept.isSome then 1 else 0) ∧
      (s'.collector.phase = .poisoned ↔ y.kept = none) := by
  intro s' y
  have b := h.begins
  have hshape : t.collector.WellFormed := by
    unfold Collector.WellFormed
    rw [b.cursor, b.arena]
    exact hs.wellFormed
  have hactive : t.collector.arena.active = Half.afterPasses t.collector.cycles := by
    rw [b.arena, b.cycles]
    exact hs.active
  refine ⟨?_, ?_⟩
  · have hcycle := Mutator.events_runCycle hshape hactive live (x.reason t.collector)
    rw [h.events, b.arena, b.cycles, List.append_assoc] at hcycle
    exact h.events_perform.trans hcycle
  · have hpassed := h.passed
    by_cases hn : y.kept = none
    · obtain ⟨e, p, hr⟩ := PassRecord.kept_eq_none_iff.mp hn
      obtain ⟨_, hrun, hw⟩ := hpassed.run_error hr
      have hend : s'.collector.phase = .poisoned ∧ s'.collector.cycles = s.collector.cycles := by
        show (endState (x.perform.run s)).collector.phase = _ ∧ (endState (x.perform.run s)).collector.cycles = _
        rw [hrun, ← b.cycles]
        exact ⟨hw.phase, hw.cycles⟩
      rw [hn]
      exact ⟨hend.2, iff_of_true hend.1 rfl⟩
    · have hok : ∃ p, (t.collector.relocateLive live).2 = .ok () p := by
        cases hr : (t.collector.relocateLive live).2 with
        | ok u p => exact ⟨p, rfl⟩
        | error e p => exact absurd (PassRecord.kept_eq_none_iff.mpr ⟨e, p, hr⟩) hn
      obtain ⟨p, hp⟩ := hok
      have hidle : s'.collector.phase = .idle := hpassed.phase_of_completed hp
      have hsome : y.kept.isSome = true := Option.isSome_iff_ne_none.mpr hn
      rw [if_pos hsome]
      refine ⟨?_, iff_of_false (by rw [hidle]; exact Phase.noConfusion) hn⟩
      rw [← b.cycles]
      exact hpassed.cycles_of_completed hp

/-- The events and counters of a run against its passes. -/
structure History (s : Session) (xs : List PassRecord) (s' : Session) : Prop where
  events : s'.events = s.events ++ (xs.zipIdx (s.collector.cycles + 1)).flatMap fun e =>
    e.1.events s.collector.arena.spaceWords e.2
  cycles : s'.collector.cycles = s.collector.cycles + xs.countP fun x => x.kept.isSome
  last : ∀ before x after, xs = before ++ x :: after → x.kept = none → after = []
  poisoned : s'.collector.phase = .poisoned ↔ s.collector.phase = .poisoned ∨ ∃ x ∈ xs, x.kept = none

theorem Chronicle.eq_nil {s : Session} {ys : List Turn} {xs : List PassRecord} (h : Chronicle s ys xs)
    (hp : s.collector.phase = .poisoned) : xs = [] := by
  induction h with
  | nil => rfl
  | @quiet s x ys xs hn _ ih =>
    exact ih ((congrArg Collector.Frame.phase (Action.frame_of_not_starts hn)).trans hp)
  | pass hs _ _ => exact absurd hp hs.usable
  | stores _ ih => exact ih hp

theorem Chronicle.history {s : Session} {ys : List Turn} {xs : List PassRecord} (h : Chronicle s ys xs)
    (hs : s.InStep) : History s xs (s.through ys) := by
  induction h with
  | @nil s =>
    refine ⟨(List.append_nil _).symm, rfl, ?_, (or_iff_left fun ⟨_, hx, _⟩ => List.not_mem_nil hx).symm⟩
    intro before x after he
    exact absurd he.symm (List.append_ne_nil_of_right_ne_nil before (List.cons_ne_nil x after))
  | @quiet s x ys xs hn _ ih =>
    have hf := Action.frame_of_not_starts hn
    have H := ih (hs.perform (.operation x))
    have hspace : (endState (x.perform.run s)).collector.arena.spaceWords = s.collector.arena.spaceWords :=
      congrArg (fun f => f.layout.spaceWords) hf
    have hcycles : (endState (x.perform.run s)).collector.cycles = s.collector.cycles :=
      congrArg Collector.Frame.cycles hf
    have hphase : (endState (x.perform.run s)).collector.phase = s.collector.phase := congrArg Collector.Frame.phase hf
    have hev := H.events
    have hcy := H.cycles
    have hpo := H.poisoned
    rw [hspace, hcycles, Action.events_of_not_starts hn] at hev
    rw [hcycles] at hcy
    rw [hphase] at hpo
    exact ⟨hev, hcy, H.last, hpo⟩
  | @pass s t live x ys xs hx hc ih =>
    obtain ⟨hev, hcy, hpo⟩ := hx.told hs
    have H := ih (hs.perform (.operation x))
    have hspace : (endState (x.perform.run s)).collector.arena.spaceWords = s.collector.arena.spaceWords :=
      congrArg (fun l => l.1.spaceWords) (x.exchanges s).1
    -- nothing runs a pass after one that has failed
    have hnil : (PassRecord.of t live (x.reason t.collector)).kept = none → xs = [] := fun hn => hc.eq_nil (hpo.mpr hn)
    refine ⟨?events, ?cycles, ?last, ?poisoned⟩
    case events =>
      refine H.events.trans ?_
      rw [hev, hspace, hcy, List.zipIdx_cons, List.flatMap_cons, List.append_assoc]
      by_cases hn : (PassRecord.of t live (x.reason t.collector)).kept = none
      · rw [hnil hn]
        rfl
      · rw [if_pos (Option.isSome_iff_ne_none.mpr hn)]
    case cycles =>
      refine H.cycles.trans ?_
      rw [hcy, List.countP_cons]
      omega
    case last =>
      intro before y after he hy
      cases before with
      | nil =>
        obtain ⟨rfl, rfl⟩ := List.cons.inj he
        exact hnil hy
      | cons _ before => exact H.last before y after (List.cons.inj he).2 hy
    case poisoned =>
      refine H.poisoned.trans ((or_congr_left hpo).trans ?_)
      rw [or_iff_right hx.usable]
      simp
  | @stores s memory ys xs _ ih =>
    have H := ih (hs.perform (.stores memory))
    exact ⟨H.events, H.cycles, H.last, H.poisoned⟩

end Semispace

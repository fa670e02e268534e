import Semispace.Proofs.Collector.Access
import Semispace.Proofs.Collector.Cycle

/-!
# What operations keep

A collector starts with a cursor over all of its active half, idle and with nothing in use. Where the
heap lies and what the cursor runs over is the shape of a collector, which nothing changes. Which half
is active, what is in the other and how many passes there were is its frame, which only a pass changes.
Pushing or storing a reference that is refused changes nothing at all.
-/

namespace Semispace

namespace Collector

/-- How starting a collector ends. -/
inductive Creation (machine : Machine) (config : Config) (j : Journal) : EStateM.Result Error Journal Collector → Prop
  | invalid {fault : Config.Fault} : config.fault? = some fault →
      Creation machine config j (.error (.configuration (.invalid fault)) j)
  | unmapped {e : Error} : config.fault? = none → Arena.map machine config.heapWords = .error e →
      Creation machine config j (.error e j)
  | released {arena : Arena} {e : Error} : config.fault? = none → Arena.map machine config.heapWords = .ok arena →
      RootStack.ofCapacity machine config.rootCapacity = .error e →
      Creation machine config j (.error e ((j.report (mappedNotice arena)).report (releasedNotice arena)))
  | created {arena : Arena} {roots : RootStack} : config.fault? = none →
      Arena.map machine config.heapWords = .ok arena → RootStack.ofCapacity machine config.rootCapacity = .ok roots →
      Creation machine config j (.ok {
        arena
        cursor := .ofCapacity arena.spaceWords
        roots
        config
        stats := .zero
        logger := .ofConfig (.ofConfig config)
        phase := .idle
        cycles := 0 } ((j.report (mappedNotice arena)).report (.started arena.spaceWords roots.capacity)))

theorem run_create (machine : Machine) (config : Config) (j : Journal) :
    Creation machine config j ((create machine config).run j) := by
  unfold create
  cases hf : config.fault? with
  | some fault => exact .invalid hf
  | none =>
    dsimp only
    cases ha : Arena.map machine config.heapWords with
    | error e => exact .unmapped hf ha
    | ok arena =>
      rw [run_liftM_bind rfl]
      cases hr : RootStack.ofCapacity machine config.rootCapacity with
      | error e => exact .released hf ha hr
      | ok roots => exact .created hf ha hr

/-- A collector just started: nothing is in use and there are no roots. -/
structure Fresh (config : Config) (c : Collector) : Prop where
  wellFormed : c.WellFormed
  top : c.cursor.top = 0
  roots : c.roots.toList = []
  rootCapacity : c.roots.capacity = config.rootCapacity
  phase : c.phase = .idle
  cycles : c.cycles = 0

theorem create_fresh {machine : Machine} {config : Config} {c : Collector} {j j' : Journal}
    (h : (create machine config).run j = .ok c j') : c.Fresh config := by
  have hc := run_create machine config j
  rw [h] at hc
  cases hc with
  | @created arena roots _ _ hr =>
    unfold RootStack.ofCapacity at hr
    split at hr
    · cases hr
      exact ⟨rfl, rfl, rfl, rfl, rfl, rfl⟩
    · cases hr

/-- Where the heap lies and how many words the cursor runs over. -/
def shape (c : Collector) : Layout × Nat := (c.arena.layout, c.cursor.capacity)

theorem WellFormed.of_shape {c c' : Collector} (h : c.WellFormed) (hs : c'.shape = c.shape) : c'.WellFormed := by
  obtain ⟨hl, hc⟩ := Prod.mk.inj hs
  unfold WellFormed Arena.spaceWords at *
  rw [hl, hc]
  exact h

/-- What only a pass changes. -/
structure Frame where
  layout : Layout
  capacity : Nat
  active : Half
  inactiveOpen : Bool
  phase : Phase
  cycles : Nat
  vacated : Nat → Word

def frame (c : Collector) : Frame where
  layout := c.arena.layout
  capacity := c.cursor.capacity
  active := c.arena.active
  inactiveOpen := c.arena.inactiveOpen
  phase := c.phase
  cycles := c.cycles
  vacated i := if i < c.arena.spaceWords then c.arena.word ⟨c.arena.inactive, i⟩ else 0

/-- Words stored in the active half leave the frame. -/
theorem frame_stored {c : Collector} {b : Arena} {loc : Location} {ws : List Word} (hb : c.arena.Stored b loc ws)
    (hl : loc.half = c.arena.active) : { c with arena := b }.frame = c.frame := by
  have hne : c.arena.inactive ≠ loc.half := by
    rw [hl]
    exact Half.other_ne _
  have hv : (fun i => if i < b.spaceWords then b.word ⟨b.inactive, i⟩ else 0) =
      fun i => if i < c.arena.spaceWords then c.arena.word ⟨c.arena.inactive, i⟩ else 0 := by
    funext i
    have hi : b.inactive = c.arena.inactive := congrArg Half.other hb.active
    rw [hb.spaceWords, hi]
    by_cases h : i < c.arena.spaceWords
    · rw [if_pos h, if_pos h, hb.other_half hne h]
    · rw [if_neg h, if_neg h]
  unfold frame
  simp only [hb.layout, hb.active, hb.inactiveOpen, hv]

theorem frame_cursor {c : Collector} {cursor : Cursor} (h : cursor.capacity = c.cursor.capacity) :
    { c with cursor }.frame = c.frame := by
  unfold frame
  simp only [h]

end Collector

namespace Mutator

variable {α β γ : Type}

/-- A part of the collector of a session. -/
def part (g : Collector → β) (s : Session) : β := g s.collector

/-! ## Small steps -/

section
variable {P : Session → β}

theorem keeps_collector : Keeps P collector := fun _ => rfl

theorem keeps_update {f : Collector → Collector} (h : ∀ s, P { s with collector := f s.collector } = P s) :
    Keeps P (update f) := h

theorem keeps_report {n : Notice} (h : ∀ s, P { s with journal := s.journal.report n } = P s) : Keeps P (report n) := h

theorem keeps_observing {x : Mutator α} (h : Keeps P x) : Keeps P (observing x) := by
  intro s
  rw [run_observing]
  exact h s

theorem keeps_forM {f : γ → Mutator Unit} (h : ∀ x, Keeps P (f x)) : ∀ xs : List γ, Keeps P (xs.forM f)
  | [] => .pure _
  | x :: xs => (h x).bind fun _ => keeps_forM h xs

theorem keeps_ensureUsable : Keeps P ensureUsable := by
  refine keeps_collector.bind fun c => ?_
  split
  · exact .throw _
  · exact .pure _

/-! ## Roots -/

section
variable (h : ∀ s roots, P { s with collector := { s.collector with roots } } = P s)
  (hfull : ∀ s n, P { s with journal := s.journal.report (.rootsFull n) } = P s)
include h

theorem keeps_rootPop : Keeps P rootPop := by
  refine keeps_ensureUsable.bind fun _ => keeps_collector.bind fun _ => (Keeps.lift _).bind fun popped => ?_
  obtain ⟨r, roots⟩ := popped
  exact (keeps_update fun s => h s _).bind fun _ => .pure _

include hfull

/-- Operations on the root stack keep what does not depend on it. -/
theorem keeps_pushSlot (r : Ref) : Keeps P (pushSlot r) := by
  refine keeps_collector.bind fun c => ?_
  split
  · exact keeps_update fun s => h s _
  · exact (keeps_report fun s => hfull s _).bind fun _ => .throw _

theorem keeps_rootPush (r : Ref) : Keeps P (rootPush r) :=
  keeps_ensureUsable.bind fun _ => keeps_collector.bind fun _ => (Keeps.lift _).bind fun _ =>
    keeps_pushSlot h hfull r

theorem keeps_pushAll (rs : List Ref) : Keeps P (pushAll rs) := by
  refine keeps_collector.bind fun c =>
    (keeps_observing (keeps_forM (keeps_pushSlot h hfull) rs)).bind fun result => ?_
  cases result with
  | ok u => exact .pure _
  | error e => exact (keeps_update fun s => h s _).bind fun _ => .throw _

end

/-! ## Words -/

section
variable (h : ∀ s arena, P { s with collector := { s.collector with arena } } = P s)
include h

/-- Operations on words keep what does not depend on the heap. -/
theorem keeps_writeWords : ∀ (ws : List Word) (loc : Location), Keeps P (writeWords loc ws)
  | [], _ => .pure _
  | _ :: ws, loc => keeps_collector.bind fun _ => (Keeps.lift _).bind fun _ =>
      (keeps_update fun s => h s _).bind fun _ => keeps_writeWords ws (loc.add 1)

theorem keeps_fill (r : Ref) (ws : List Word) : Keeps P (fill r ws) :=
  keeps_collector.bind fun _ => (Keeps.lift _).bind fun _ => keeps_writeWords h ws _

/-- A scalar object is an allocation and its words. -/
theorem endState_allocScalar (tag : Tag) (second : Word) (s : Session) :
    P (endState ((allocScalar tag second).run s)) = P (endState ((allocate headerWords).run s)) :=
  Keeps.run_bind rfl fun r => (keeps_fill h r _).bind fun _ => .pure r

theorem keeps_vectorSet (r : Ref) (i : Nat) (value : Option Ref) : Keeps P (vectorSet r i value) := by
  refine keeps_ensureUsable.bind fun _ => keeps_collector.bind fun c => (Keeps.lift _).bind fun loc => ?_
  cases value with
  | none => exact (Keeps.lift _).bind fun _ => keeps_update fun s => h s _
  | some v => exact (Keeps.lift _).bind fun _ => (Keeps.lift _).bind fun _ => keeps_update fun s => h s _

theorem keeps_writeWord (r : Ref) (i : Nat) (w : Word) : Keeps P (writeWord r i w) :=
  keeps_ensureUsable.bind fun _ => keeps_collector.bind fun _ => (Keeps.lift _).bind fun _ =>
    (Keeps.lift _).bind fun _ => keeps_update fun s => h s _

end

end

/-! ## The frame -/

/-- What follows when there is room: the words are taken and zeroed. -/
def handOut (words : Nat) : Mutator Ref := do
  let c ← collector
  let (offset, cursor) ← c.cursor.take words
  update fun c => { c with cursor }
  let loc : Location := ⟨c.arena.active, offset⟩
  let arena ← c.arena.zero loc words
  update fun c => { c with arena, stats := c.stats.addAllocation words }
  match Ref.ofWord? (arena.address loc) with
  | none => throw (.internal .nullAllocation)
  | some r => return r

theorem allocate_eq (words : Nat) : allocate words = (do
    ensureUsable
    if words = 0 then throw (.invalidSize words)
    else
      ensureRoom words
      handOut words) := rfl

/-- Handing out words keeps what does not depend on the collector. -/
theorem keeps_handOut {P : Session → β} (h : ∀ s collector, P { s with collector } = P s) (words : Nat) :
    Keeps P (handOut words) := by
  unfold handOut
  refine keeps_collector.bind fun c => (Keeps.lift _).bind fun taken => ?_
  obtain ⟨offset, cursor⟩ := taken
  refine (keeps_update fun s => h s _).bind fun _ => (Keeps.lift _).bind fun arena =>
    (keeps_update fun s => h s _).bind fun _ => ?_
  split
  · exact .throw _
  · exact .pure _

/-- A pass reports its copies and that the halves are exchanged, and nothing else. -/
theorem keeps_notices_runPass (f : Notice → Option γ) (hcopy : ∀ k : Copy, f k.notice = none)
    (hswap : ∀ active vacated, f (.halvesExchanged active vacated) = none) (live : Nat) :
    Keeps (fun s : Session => s.journal.notices.toList.filterMap f) (runPass live) := by
  unfold runPass
  refine keeps_collector.bind fun c => ?_
  dsimp only
  refine (keeps_update fun _ => rfl).bind fun _ => Keeps.bind (fun s => ?_) fun _ => ?_
  · refine s.journal.filterMap_reportAll_none f fun n hn => ?_
    obtain ⟨k, _, rfl⟩ := List.mem_map.mp hn
    exact hcopy k
  · split
    · exact .throw _
    · refine (keeps_update fun _ => rfl).bind fun _ => (keeps_report fun s => ?_).bind fun _ => .pure _
      rw [Journal.filterMap_report, hswap]
      exact List.append_nil _

theorem keeps_frame_handOut (words : Nat) : Keeps (part Collector.frame) (handOut words) := by
  intro s
  unfold handOut
  rw [run_collector_bind]
  cases ht : s.collector.cursor.take words with
  | error e => rfl
  | ok taken =>
    obtain ⟨offset, cursor⟩ := taken
    have hc : cursor.capacity = s.collector.cursor.capacity := (Cursor.take_eq_ok_iff.mp ht).2.2.2
    have hf : { s.collector with cursor }.frame = s.collector.frame := Collector.frame_cursor hc
    rw [run_liftM_bind rfl]
    dsimp only
    rw [run_update_bind]
    cases hb : s.collector.arena.zero ⟨s.collector.arena.active, offset⟩ words with
    | error e => exact hf
    | ok b =>
      rw [run_liftM_bind rfl, run_update_bind]
      have hz : { s.collector with cursor, arena := b }.frame = s.collector.frame :=
        (Collector.frame_stored (c := { s.collector with cursor }) (Arena.zero_stored hb) rfl).trans hf
      split
      · exact hz
      · exact hz

/-- Storing a word in the active half. -/
theorem frame_write {s : Session} {loc : Location} (w : Word) (hl : loc.half = s.collector.arena.active) :
    part Collector.frame (endState ((do
      let arena ← (liftM (s.collector.arena.write loc w) : Mutator Arena)
      update fun c => { c with arena }).run s)) = part Collector.frame s := by
  cases hb : s.collector.arena.write loc w with
  | error e => rfl
  | ok b => exact Collector.frame_stored (Arena.write_stored hb) hl

theorem frame_writeWords : ∀ (ws : List Word) {loc : Location} {s : Session}, loc.half = s.collector.arena.active →
    part Collector.frame (endState ((writeWords loc ws).run s)) = part Collector.frame s
  | [], _, _, _ => rfl
  | w :: ws, loc, s, hl => by
    unfold writeWords
    rw [run_collector_bind]
    cases hb : s.collector.arena.write loc w with
    | error e => rfl
    | ok b =>
      have hst := Arena.write_stored hb
      have hb' : { s.collector with arena := b }.frame = s.collector.frame := Collector.frame_stored hst hl
      rw [run_liftM_bind rfl, run_update_bind]
      have ih := @frame_writeWords ws (loc.add 1) { s with collector := { s.collector with arena := b } }
        (hl.trans hst.active.symm)
      exact ih.trans hb'

theorem keeps_frame_fill (r : Ref) (ws : List Word) : Keeps (part Collector.frame) (fill r ws) := by
  intro s
  unfold fill
  rw [run_collector_bind]
  cases hw : s.collector.wordLocation r 0 with
  | error e => rfl
  | ok loc =>
    obtain ⟨o, _, _, rfl⟩ := Collector.wordLocation_eq_ok_iff.mp hw
    rw [run_liftM_bind rfl]
    exact frame_writeWords ws rfl

theorem keeps_frame_vectorSet (r : Ref) (i : Nat) (value : Option Ref) :
    Keeps (part Collector.frame) (vectorSet r i value) := by
  refine keeps_ensureUsable.bind fun _ => ?_
  intro s
  rw [run_collector_bind]
  dsimp only
  cases hl : s.collector.slotLocation r i with
  | error e => rfl
  | ok loc =>
    have hh := Collector.half_of_slotLocation hl
    rw [run_liftM_bind rfl]
    cases value with
    | none => exact frame_write _ hh
    | some v =>
      dsimp only
      cases hv : s.collector.checkObject v with
      | error e => rfl
      | ok found => exact frame_write _ hh

theorem keeps_frame_writeWord (r : Ref) (i : Nat) (w : Word) : Keeps (part Collector.frame) (writeWord r i w) := by
  refine keeps_ensureUsable.bind fun _ => ?_
  intro s
  rw [run_collector_bind]
  cases hl : s.collector.wordLocation r i with
  | error e => rfl
  | ok loc =>
    obtain ⟨o, _, _, rfl⟩ := Collector.wordLocation_eq_ok_iff.mp hl
    rw [run_liftM_bind rfl]
    exact frame_write w rfl

/-! ## Checked references -/

section
variable {s : Session} {r : Ref} {i : Nat} {loc : Location} {e : Error} (hp : s.collector.phase ≠ .poisoned)
include hp

theorem run_rootPush_ok {found : Location × Header} (hc : s.collector.checkObject r = .ok found) :
    (rootPush r).run s = (pushSlot r).run s := by
  unfold rootPush
  rw [run_ensureUsable_bind hp, run_collector_bind, run_liftM_bind hc]

theorem run_rootPush_error (hc : s.collector.checkObject r = .error e) : (rootPush r).run s = .error e s := by
  unfold rootPush
  rw [run_ensureUsable_bind hp, run_collector_bind]
  exact run_liftM_bind_error hc _ _

/-- A slot that is there takes any value that is an object. -/
theorem run_vectorSet_ok {value : Option Ref} (hl : s.collector.slotLocation r i = .ok loc)
    (hv : ∀ v, value = some v → ∃ found, s.collector.checkObject v = .ok found) :
    ∃ b, s.collector.arena.write loc (Ref.slotWord value) = .ok b ∧
      s.collector.arena.Stored b loc [Ref.slotWord value] ∧
      (vectorSet r i value).run s = .ok () { s with collector := { s.collector with arena := b } } := by
  obtain ⟨o, h, x, _, hi, hloc⟩ := Collector.exists_of_slotLocation hl
  have hlt : loc.offset < s.collector.arena.spaceWords := by
    have hsize := h.size_eq
    have hinside := x.inside
    rw [hloc]
    dsimp only
    omega
  have hopen : s.collector.arena.isOpen loc.half = true := hloc ▸ s.collector.arena.isOpen_active
  obtain ⟨b, hb, hst⟩ := Arena.write_ok (Ref.slotWord value) hlt hopen
  refine ⟨b, hb, hst, ?_⟩
  unfold vectorSet
  rw [run_ensureUsable_bind hp, run_collector_bind]
  dsimp only
  rw [run_liftM_bind hl]
  cases value with
  | none => exact run_liftM_bind hb _ _
  | some v =>
    obtain ⟨found, hc⟩ := hv v rfl
    exact (run_liftM_bind hc _ _).trans (run_liftM_bind hb _ _)

theorem run_vectorSet_error {v : Ref} (hl : s.collector.slotLocation r i = .ok loc)
    (hc : s.collector.checkObject v = .error e) : (vectorSet r i (some v)).run s = .error e s := by
  unfold vectorSet
  rw [run_ensureUsable_bind hp, run_collector_bind]
  dsimp only
  rw [run_liftM_bind hl]
  exact run_liftM_bind_error hc _ _

theorem run_vectorSet_unlocated (hl : s.collector.slotLocation r i = .error e) (value : Option Ref) :
    (vectorSet r i value).run s = .error e s := by
  unfold vectorSet
  rw [run_ensureUsable_bind hp, run_collector_bind]
  exact run_liftM_bind_error hl _ _

theorem run_writeWord_ok {w : Word} {b : Arena} (hl : s.collector.wordLocation r i = .ok loc)
    (hb : s.collector.arena.write loc w = .ok b) :
    (writeWord r i w).run s = .ok () { s with collector := { s.collector with arena := b } } := by
  unfold writeWord
  rw [run_ensureUsable_bind hp, run_collector_bind, run_liftM_bind hl, run_liftM_bind hb]
  rfl

theorem run_writeWord_unlocated (hl : s.collector.wordLocation r i = .error e) (w : Word) :
    (writeWord r i w).run s = .error e s := by
  unfold writeWord
  rw [run_ensureUsable_bind hp, run_collector_bind]
  exact run_liftM_bind_error hl _ _

end

/-! ## Writing that succeeds -/

section
variable {s s' : Session} {r : Ref} {i : Nat}

/-- What is stored is stored at the location found, the value being an object. -/
theorem exists_of_vectorSet {value : Option Ref} (h : (vectorSet r i value).run s = .ok () s') :
    s.collector.phase ≠ .poisoned ∧ ∃ loc b, s.collector.slotLocation r i = .ok loc ∧
      (∀ v, value = some v → ∃ found, s.collector.checkObject v = .ok found) ∧
      s.collector.arena.write loc (Ref.slotWord value) = .ok b ∧
      s' = { s with collector := { s.collector with arena := b } } := by
  have hp : s.collector.phase ≠ .poisoned := by
    intro hp
    unfold vectorSet at h
    rw [run_ensureUsable_poisoned hp] at h
    cases h
  refine ⟨hp, ?_⟩
  cases hl : s.collector.slotLocation r i with
  | error e =>
    rw [run_vectorSet_unlocated hp hl] at h
    cases h
  | ok loc =>
    have hv : ∀ v, value = some v → ∃ found, s.collector.checkObject v = .ok found := by
      rintro v rfl
      cases hc : s.collector.checkObject v with
      | error e =>
        rw [run_vectorSet_error hp hl hc] at h
        cases h
      | ok found => exact ⟨found, rfl⟩
    obtain ⟨b, hb, _, hrun⟩ := run_vectorSet_ok hp hl hv
    rw [hrun] at h
    cases h
    exact ⟨loc, b, rfl, hv, hb, rfl⟩

theorem exists_of_writeWord {w : Word} (h : (writeWord r i w).run s = .ok () s') :
    s.collector.phase ≠ .poisoned ∧ ∃ loc b, s.collector.wordLocation r i = .ok loc ∧
      s.collector.arena.write loc w = .ok b ∧ s' = { s with collector := { s.collector with arena := b } } := by
  have hp : s.collector.phase ≠ .poisoned := by
    intro hp
    unfold writeWord at h
    rw [run_ensureUsable_poisoned hp] at h
    cases h
  refine ⟨hp, ?_⟩
  cases hl : s.collector.wordLocation r i with
  | error e =>
    rw [run_writeWord_unlocated hp hl] at h
    cases h
  | ok loc =>
    cases hb : s.collector.arena.write loc w with
    | error e =>
      unfold writeWord at h
      rw [run_ensureUsable_bind hp, run_collector_bind, run_liftM_bind hl, run_liftM_bind_error hb] at h
      cases h
    | ok b =>
      rw [run_writeWord_ok hp hl hb] at h
      cases h
      exact ⟨loc, b, rfl, hb, rfl⟩

end

end Mutator

end Semispace

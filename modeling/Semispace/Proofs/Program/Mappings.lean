import Semispace.Proofs.Collector.Action
import Semispace.Proofs.Program.Failure

/-!
# Mappings

A program maps memory when it sets up a heap and has it until the heap is released. Whatever it calls,
and whatever ends it, a mapping is released before the next one is made, and none is left at the end.
-/

namespace Semispace

/-- Memory that a heap has from the system. -/
structure Mapping where
  base : Word
  bytes : Nat
  deriving DecidableEq, Repr

def Layout.mapping (l : Layout) : Mapping := ⟨l.address ⟨.low, 0⟩, l.mappedBytes⟩

/-- A mapping is made, or it is released. -/
inductive Mapping.Change
  | made (m : Mapping)
  | released (m : Mapping)
  deriving DecidableEq, Repr

def Mapping.Change.isMade : Mapping.Change → Bool
  | made _ => true
  | released _ => false

/-- What a notice tells of a mapping; the notice of a new one has the bytes of a half. -/
def Notice.mapping? : Notice → Option Mapping.Change
  | heapMapped base spaceBytes _ => some (.made ⟨base, 2 * spaceBytes⟩)
  | heapReleased base bytes => some (.released ⟨base, bytes⟩)
  | _ => none

/-- The mappings among the notices. -/
def Journal.mappings (j : Journal) : List Mapping.Change := j.notices.toList.filterMap Notice.mapping?

theorem Journal.mappings_report (j : Journal) (n : Notice) : (j.report n).mappings = j.mappings ++ n.mapping?.toList :=
  j.filterMap_report Notice.mapping? n

theorem Journal.mappings_report_none (j : Journal) {n : Notice} (h : n.mapping? = none) :
    (j.report n).mappings = j.mappings := by
  rw [j.mappings_report, h]
  exact List.append_nil _

theorem Logger.mappings_record (l : Logger) (j : Journal) (e : Event) : (l.record j e).mappings = j.mappings := by
  unfold Journal.mappings
  rw [l.notices_record]
  exact j.mappings_report_none rfl

theorem Collector.mappings_shutDown (c : Collector) (j : Journal) :
    (c.shutDown j).mappings = j.mappings ++ [.released c.arena.layout.mapping] := by
  unfold shutDown
  rw [Journal.mappings_report, Journal.mappings_report_none _ rfl]
  rfl

/-! ## Operations of a collector -/

def Session.mappings (s : Session) : List Mapping.Change := s.journal.mappings

namespace Mutator

theorem keeps_mappings_report {n : Notice} (h : n.mapping? = none) : Keeps Session.mappings (report n) :=
  keeps_report fun s => s.journal.mappings_report_none h

theorem keeps_mappings_emit (e : Event) : Keeps Session.mappings (emit e) :=
  fun s => s.collector.logger.mappings_record s.journal e

theorem keeps_mappings_runPass (live : Nat) : Keeps Session.mappings (runPass live) :=
  keeps_notices_runPass Notice.mapping? (fun _ => rfl) (fun _ _ => rfl) live

theorem keeps_mappings_runCycle (live : Nat) (reason : Reason) : Keeps Session.mappings (runCycle live reason) := by
  unfold runCycle
  refine keeps_collector.bind fun c => (keeps_update fun _ => rfl).bind fun _ => (keeps_mappings_emit _).bind fun _ =>
    (keeps_observing (keeps_mappings_runPass live)).bind fun result => ?_
  cases result with
  | error e => exact (keeps_update fun _ => rfl).bind fun _ => (keeps_mappings_report rfl).bind fun _ => .throw e
  | ok p =>
    refine (keeps_update fun _ => rfl).bind fun _ => Keeps.bind ?_ fun _ => .pure _
    unfold emitCompleted
    exact keeps_collector.bind fun c => (keeps_mappings_emit _).bind fun _ => (keeps_mappings_emit _).bind fun _ =>
      (keeps_mappings_emit _).bind fun _ => keeps_mappings_emit _

theorem keeps_mappings_collect (live : Nat) : Keeps Session.mappings (collect live) := by
  unfold collect
  refine keeps_ensureUsable.bind fun _ => keeps_collector.bind fun c => ?_
  dsimp only
  split
  · exact .throw _
  · exact keeps_mappings_runCycle _ _

theorem keeps_mappings_ensureRoom (words : Nat) : Keeps Session.mappings (ensureRoom words) := by
  unfold ensureRoom
  refine keeps_collector.bind fun c => ?_
  split
  · exact .pure _
  · refine (keeps_mappings_emit _).bind fun _ => (keeps_update fun _ => rfl).bind fun _ =>
      (keeps_mappings_runCycle _ _).bind fun _ => keeps_collector.bind fun c => ?_
    split
    · exact .pure _
    · exact (keeps_mappings_report rfl).bind fun _ => .throw _

theorem keeps_mappings_allocate (words : Nat) : Keeps Session.mappings (allocate words) := by
  rw [allocate_eq]
  refine keeps_ensureUsable.bind fun _ => ?_
  split
  · exact .throw _
  · exact (keeps_mappings_ensureRoom words).bind fun _ => keeps_handOut (fun _ _ => rfl) words

/-- An operation that neither maps memory nor moves the heap. -/
def Spares {α : Type} (x : Mutator α) : Prop :=
  Keeps Session.mappings x ∧ Keeps (part fun c => c.arena.layout) x

theorem keeps_layout {α : Type} {x : Mutator α} (y : Action) (h : y.perform = x >>= fun _ => pure ()) :
    Keeps (part fun c => c.arena.layout) x := by
  intro s
  have hshape := (y.exchanges s).1
  rw [h] at hshape
  cases hr : x.run s with
  | ok a t =>
    rw [run_bind_ok hr] at hshape
    exact congrArg Prod.fst hshape
  | error e t =>
    rw [run_bind_error hr] at hshape
    exact congrArg Prod.fst hshape

theorem spares_allocate (words : Nat) : Spares (allocate words) :=
  ⟨keeps_mappings_allocate words, keeps_layout (.allocate words) rfl⟩

theorem spares_collect (live : Nat) : Spares (collect live) :=
  ⟨keeps_mappings_collect live, keeps_layout (.collect live) rfl⟩

theorem spares_rootPush (r : Ref) : Spares (rootPush r) :=
  ⟨keeps_rootPush (fun _ _ => rfl) (fun s _ => s.journal.mappings_report_none rfl) r,
    keeps_rootPush (fun _ _ => rfl) (fun _ _ => rfl) r⟩

theorem spares_rootPop : Spares rootPop := ⟨keeps_rootPop fun _ _ => rfl, keeps_rootPop fun _ _ => rfl⟩

end Mutator

/-! ## Calls -/

/-- Mappings that are made and released in turn, and the one that is there at the end. -/
inductive Ledger : List Mapping.Change → Option Mapping → Prop
  | nil : Ledger [] none
  | made {xs : List Mapping.Change} {m : Mapping} : Ledger xs none → Ledger (xs ++ [.made m]) (some m)
  | released {xs : List Mapping.Change} {m : Mapping} : Ledger xs (some m) → Ledger (xs ++ [.released m]) none

theorem Ledger.count {xs : List Mapping.Change} {o : Option Mapping} (h : Ledger xs o) :
    xs.countP Mapping.Change.isMade = xs.countP (fun x => !x.isMade) + if o.isSome then 1 else 0 := by
  induction h with
  | nil => rfl
  | made _ ih =>
    simp only [List.countP_append, ih]
    rfl
  | released _ ih =>
    simp only [List.countP_append, ih]
    rfl

namespace Program

/-- The configuration of a heap that is set up by a call. -/
def configFor (p : Program) (heap roots : Int) : Config :=
  { p.environment.config with heapWords := heap.toNat, rootCapacity := roots.toNat }

/-- The mapping that is there is that of the heap in the slot. -/
def Balanced (p : Program) : Prop := Ledger p.journal.mappings (p.slot.map fun c => c.arena.layout.mapping)

variable {p : Program}

theorem Balanced.report (h : p.Balanced) {n : Notice} (hn : n.mapping? = none) :
    Balanced { p with journal := p.journal.report n } := by
  unfold Balanced
  dsimp only
  rw [p.journal.mappings_report_none hn]
  exact h

end Program

namespace Call

/-- How a call ends: it returns, or the process is over and has no heap any more. -/
inductive Ends {α : Type} : EStateM.Result UInt8 Program α → Prop
  | returned {a : α} {p : Program} : p.Balanced → Ends (.ok a p)
  | exited {status : UInt8} {p : Program} : p.Balanced → p.slot = none → Ends (.error status p)

variable {α β : Type} {p : Program}

theorem Ends.bind {x : Call α} {f : α → Call β} (hx : Ends (x.run p)) (hf : ∀ a p', p'.Balanced → Ends ((f a).run p')) :
    Ends ((x >>= f).run p) := by
  generalize hr : x.run p = out at hx
  cases hx with
  | returned h =>
    rw [run_bind_ok hr]
    exact hf _ _ h
  | exited h hs =>
    rw [run_bind_error hr]
    exact .exited h hs

theorem Ends.map {x : Call α} (hx : Ends (x.run p)) (f : α → β) : Ends ((x >>= fun a => pure (f a)).run p) :=
  hx.bind fun _ _ h => .returned h

theorem run_release_none (hs : p.slot = none) : release.run p = .ok ⟨⟩ p := by
  unfold release
  show EStateM.Result.ok PUnit.unit _ = _
  dsimp only
  rw [hs]

theorem run_release (h : p.Balanced) : ∃ p', release.run p = .ok ⟨⟩ p' ∧ p'.Balanced ∧ p'.slot = none := by
  cases hs : p.slot with
  | none => exact ⟨p, run_release_none hs, h, hs⟩
  | some c =>
    refine ⟨{ p with slot := none, journal := c.shutDown p.journal }, ?_, ?_, rfl⟩
    · unfold release
      show EStateM.Result.ok PUnit.unit _ = _
      dsimp only
      rw [hs]
    · unfold Program.Balanced at h ⊢
      dsimp only
      rw [hs] at h
      rw [c.mappings_shutDown]
      exact .released h

theorem run_report_bind (n : Notice) (f : Unit → Call α) (p : Program) :
    (report n >>= f).run p = (f ()).run { p with journal := p.journal.report n } := rfl

/-- The end of a process releases the heap. -/
theorem ends_exit (h : p.Balanced) {n : Notice} (hn : n.mapping? = none) (status : UInt8) :
    Ends ((do report n; release; throw status : Call α).run p) := by
  obtain ⟨p', hr, hb, hs⟩ := run_release (h.report hn)
  rw [run_report_bind, run_bind_ok hr]
  exact .exited hb hs

theorem ends_terminate (h : p.Balanced) (e : Error) : Ends ((terminate e : Call α).run p) := ends_exit h rfl _

theorem ends_raise (h : p.Balanced) (signal : Nat) : Ends ((raise signal : Call α).run p) := ends_exit h rfl _

theorem ends_report (h : p.Balanced) {n : Notice} (hn : n.mapping? = none) (a : α) :
    Ends ((report n >>= fun _ => pure a).run p) := .returned (h.report hn)

theorem ends_onCollector (h : p.Balanced) (call : EntryPoint) {op : Mutator α} (hop : op.Spares) :
    Ends ((onCollector call op).run p) := by
  unfold onCollector
  rw [run_get_bind]
  cases hs : p.slot with
  | none => exact ends_report h rfl _
  | some c =>
    dsimp only
    have hb : ∀ {s}, endState (op.run ⟨c, p.journal⟩) = s →
        Program.Balanced { p with slot := some s.collector, journal := s.journal } := by
      intro s he
      have hj := hop.1 ⟨c, p.journal⟩
      have hl := hop.2 ⟨c, p.journal⟩
      rw [he] at hj hl
      unfold Program.Balanced at h ⊢
      rw [hs] at h
      show Ledger s.journal.mappings (some s.collector.arena.layout.mapping)
      rw [show s.journal.mappings = p.journal.mappings from hj, show s.collector.arena.layout = c.arena.layout from hl]
      exact h
    cases hr : op.run ⟨c, p.journal⟩ with
    | ok a s => exact .returned (hb (congrArg endState hr))
    | error e s =>
      dsimp only
      by_cases hf : e.isFatal = true
      · rw [if_pos hf]
        exact ends_terminate (hb (congrArg endState hr)) e
      · rw [if_neg hf]
        exact ends_report (hb (congrArg endState hr)) rfl _

/-- The mappings of a collector that is started, and of one that cannot be. -/
theorem mappings_create {machine : Machine} {config : Config} {j : Journal} :
    (∀ c j', (Collector.create machine config).run j = .ok c j' →
      j'.mappings = j.mappings ++ [.made c.arena.layout.mapping]) ∧
    ∀ e j', (Collector.create machine config).run j = .error e j' → j'.mappings = j.mappings ∨
      ∃ m, j'.mappings = j.mappings ++ [.made m] ++ [.released m] := by
  have hc := Collector.run_create machine config j
  generalize (Collector.create machine config).run j = out at hc
  refine ⟨?_, ?_⟩
  · intro c j' hr
    subst hr
    cases hc with
    | created _ _ _ =>
      rw [Journal.mappings_report_none _ rfl, Journal.mappings_report]
      rfl
  · intro e j' hr
    subst hr
    cases hc with
    | invalid _ => exact Or.inl rfl
    | unmapped _ _ => exact Or.inl rfl
    | @released arena _ _ _ _ =>
      refine Or.inr ⟨arena.layout.mapping, ?_⟩
      rw [Journal.mappings_report, Journal.mappings_report]
      rfl

/-- A heap is not replaced. -/
theorem run_init_again {c : Collector} (hs : p.slot = some c) (heap roots : Int) :
    ∃ p', (init heap roots).run p = .ok true p' ∧ p'.slot = some c ∧ p'.journal.mappings = p.journal.mappings := by
  have hr : (init heap roots).run p = (report .alreadyInitialized >>= fun _ => pure true).run p := by
    unfold init
    rw [run_get_bind, hs]
    rfl
  exact ⟨_, hr, hs, p.journal.mappings_report_none rfl⟩

/-- A heap is set up when there is none and no size is negative. -/
theorem run_init {heap roots : Int} (hs : p.slot = none) (hn : ¬ (heap < 0 ∨ roots < 0)) : (init heap roots).run p =
    (match (Collector.create p.machine (p.configFor heap roots)).run p.journal with
    | .ok c journal => do
      set { p with slot := some c, journal }
      return true
    | .error e journal => do
      set { p with journal }
      if e.isFatal then terminate e
      else
        report (.initRefused e)
        return false : Call Bool).run p := by
  unfold init
  rw [run_get_bind, hs]
  simp only [Option.isSome_none]
  rw [if_neg Bool.false_ne_true, if_neg hn]
  rfl

theorem ends_init (h : p.Balanced) (heap roots : Int) : Ends ((init heap roots).run p) := by
  cases hs : p.slot with
  | some c =>
    obtain ⟨p', hr, hc, hm⟩ := run_init_again hs heap roots
    rw [hr]
    refine .returned ?_
    unfold Program.Balanced at h ⊢
    rw [hc, hm, ← hs]
    exact h
  | none =>
    by_cases hn : heap < 0 ∨ roots < 0
    · unfold init
      rw [run_get_bind, hs]
      simp only [Option.isSome_none]
      rw [if_neg Bool.false_ne_true, if_pos hn]
      exact ends_report h rfl false
    rw [run_init hs hn]
    have hl : Ledger p.journal.mappings none := by
      unfold Program.Balanced at h
      rw [hs] at h
      exact h
    cases hr : (Collector.create p.machine (p.configFor heap roots)).run p.journal with
    | ok c j =>
      refine .returned ?_
      show Ledger j.mappings (some c.arena.layout.mapping)
      rw [mappings_create.1 c j hr]
      exact .made hl
    | error e j =>
      have hb : Program.Balanced { p with journal := j } := by
        unfold Program.Balanced
        dsimp only
        rw [hs]
        rcases mappings_create.2 e j hr with hsame | ⟨m, hm⟩
        · rw [hsame]
          exact hl
        · rw [hm]
          exact .released (.made hl)
      dsimp only
      by_cases hf : e.isFatal = true
      · rw [if_pos hf]
        exact ends_terminate hb e
      · rw [if_neg hf]
        exact ends_report hb rfl false

theorem ends_malloc (h : p.Balanced) (size : Int) : Ends ((malloc size).run p) := by
  unfold malloc
  split
  · exact ends_report h rfl none
  · exact ends_onCollector h .malloc (Mutator.spares_allocate _)

theorem ends_collect (h : p.Balanced) (live : Int) : Ends ((collect live).run p) := by
  unfold collect
  split
  · exact .returned (h.report rfl)
  · exact (ends_onCollector h .collect (Mutator.spares_collect _)).map _

theorem ends_push (h : p.Balanced) (r : Option Ref) : Ends ((push r).run p) := by
  cases r with
  | none => exact ends_report h rfl false
  | some r => exact (ends_onCollector h .push (Mutator.spares_rootPush r)).map _

theorem ends_top (h : p.Balanced) : Ends (top.run p) := by
  unfold top
  rw [run_get_bind]
  split
  · exact .returned h
  · exact .returned h

theorem run_destroy (h : p.Balanced) : ∃ p', destroy.run p = .ok () p' ∧ p'.Balanced ∧ p'.slot = none := by
  unfold destroy
  rw [run_get_bind]
  cases hs : p.slot with
  | none => exact ⟨_, rfl, h.report rfl, hs⟩
  | some c => exact run_release h

theorem ends_destroy (h : p.Balanced) : Ends (destroy.run p) := by
  obtain ⟨p', hr, hb, _⟩ := run_destroy h
  exact hr ▸ .returned hb

theorem ends_load (h : p.Balanced) (addr : Word) : Ends ((load addr).run p) := by
  unfold load
  rw [run_get_bind]
  split
  · exact ends_raise h faultSignal
  · exact .returned h

theorem ends_store (h : p.Balanced) (addr w : Word) : Ends ((store addr w).run p) := by
  unfold store
  rw [run_get_bind]
  cases hs : p.slot with
  | none => exact ends_raise h faultSignal
  | some c =>
    dsimp only
    cases ha : c.arena.store? addr w with
    | none => exact ends_raise h faultSignal
    | some arena =>
      have hl : arena.layout = c.arena.layout := by
        unfold Arena.store? at ha
        obtain ⟨byte, _, rfl⟩ := Option.map_eq_some_iff.mp ha
        dsimp only
        split <;> rfl
      refine .returned ?_
      unfold Program.Balanced at h ⊢
      rw [hs] at h
      show Ledger p.journal.mappings (some arena.layout.mapping)
      rw [hl]
      exact h

end Call

/-! ## Whatever happens to a program -/

/-- What can happen to a program: a call, or a signal between two calls. -/
inductive Incident
  | call (x : Request)
  | signal (n : Nat)

def Incident.perform : Incident → Call Unit
  | call x => x.perform
  | signal n => Call.raise n

theorem Request.ends {p : Program} (h : p.Balanced) (x : Request) : Call.Ends (x.perform.run p) := by
  cases x with
  | init heap roots => exact (Call.ends_init h heap roots).map _
  | malloc size => exact (Call.ends_malloc h size).map _
  | collect live => exact Call.ends_collect h live
  | push r => exact (Call.ends_push h r).map _
  | pop => exact (Call.ends_onCollector h .pop Mutator.spares_rootPop).map _
  | top => exact (Call.ends_top h).map _
  | destroy => exact Call.ends_destroy h
  | load addr => exact (Call.ends_load h addr).map _
  | store addr w => exact Call.ends_store h addr w

theorem Incident.ends {p : Program} (h : p.Balanced) (x : Incident) : Call.Ends (x.perform.run p) := by
  cases x with
  | call x => exact x.ends h
  | signal n => exact Call.ends_raise h n

namespace Program

variable {p : Program}

/-- Mappings made so far. -/
def made (p : Program) : Nat := p.journal.mappings.countP Mapping.Change.isMade

/-- Mappings released so far. -/
def released (p : Program) : Nat := p.journal.mappings.countP fun x => !x.isMade

end Program

namespace Call

variable {p : Program}

theorem run_init_fatal {heap roots : Int} {e : Error} {j : Journal} (hs : p.slot = none) (hh : 0 ≤ heap) (hn : 0 ≤ roots)
    (hr : (Collector.create p.machine (p.configFor heap roots)).run p.journal = .error e j) (hf : e.isFatal = true) :
    (init heap roots).run p = .error (exitStatus e.exitCode) { p with journal := j.report (.fatal e) } := by
  rw [run_init hs (by omega), hr]
  dsimp only
  rw [if_pos hf]
  have hnone : Program.slot { p with journal := j.report (.fatal e) } = none := hs
  show (release >>= fun _ => throw _ : Call Bool).run { p with journal := j.report (.fatal e) } = _
  rw [run_bind_ok (run_release_none hnone)]
  rfl

end Call

end Semispace

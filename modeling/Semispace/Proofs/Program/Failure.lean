import Semispace.Program
import Semispace.Proofs.Collector.Passes
import Semispace.Proofs.Relocation.Failure

/-!
# Programs whose passes fail

`failed_pass_ends_process`: a call whose pass fails ends the process, except for the one error of a
pass that is not fatal. There the call returns and leaves a poisoned collector in the slot, and
nothing else ever does.
-/

namespace Semispace

/-! ## Passes in operations -/

/-- An operation that runs a pass poisons the collector only when the pass fails. -/
theorem Passed.usable {α : Type} {t : Session} {live : Nat} {rs : List Ref} {out : EStateM.Result Error Session α}
    (h : Passed t live rs out) (hn : ∀ e q, (t.collector.relocateLive live).2 ≠ .error e q) :
    Mutator.part Collector.phase (endState out) ≠ .poisoned := by
  cases h with
  | failed hp _ => exact absurd hp (hn _ _)
  | completed _ hs he =>
    have hphase : (endState out).collector.phase = .idle := (congrArg Collector.Frame.phase he).trans hs.phase
    exact ne_of_eq_of_ne hphase nofun

namespace Mutator

variable {s : Session} {words live : Nat} {e : Error} {q : Pass}

theorem run_allocate_error (hp : s.collector.phase ≠ .poisoned) (hf : s.collector.cursor.fits words = false)
    (h : (s.collector.relocateLive s.collector.roots.top).2 = .error e q) :
    ∃ s', (allocate words).run s = .error e s' ∧ s'.collector.phase = .poisoned := by
  obtain ⟨s', hrun, hw⟩ := (passed_allocate hp hf).run_error h
  exact ⟨s', hrun, hw.phase⟩

theorem run_collect_error (hp : s.collector.phase ≠ .poisoned) (hl : live ≤ s.collector.roots.top)
    (h : (s.collector.relocateLive live).2 = .error e q) :
    ∃ s', (collect live).run s = .error e s' ∧ s'.collector.phase = .poisoned := by
  obtain ⟨s', hrun, hw⟩ := (passed_collect hp hl).run_error h
  exact ⟨s', hrun, hw.phase⟩

/-! ## Nothing but a pass changes the phase -/

theorem phase_allocate (hp : s.collector.phase ≠ .poisoned)
    (h : s.collector.cursor.fits words = false → ∀ e q, (s.collector.relocateLive s.collector.roots.top).2 ≠ .error e q) :
    part Collector.phase (endState ((allocate words).run s)) ≠ .poisoned := by
  cases hf : s.collector.cursor.fits words with
  | true => exact ne_of_eq_of_ne (congrArg Collector.Frame.phase (frame_allocate hf)) hp
  | false => exact (passed_allocate hp hf).usable (h hf)

theorem phase_collect (hp : s.collector.phase ≠ .poisoned)
    (h : live ≤ s.collector.roots.top → ∀ e q, (s.collector.relocateLive live).2 ≠ .error e q) :
    part Collector.phase (endState ((collect live).run s)) ≠ .poisoned := by
  by_cases hl : s.collector.roots.top < live
  · exact ne_of_eq_of_ne (congrArg Collector.Frame.phase (frame_collect hl)) hp
  · exact (passed_collect hp (Nat.not_lt.mp hl)).usable (h (Nat.not_lt.mp hl))

end Mutator

/-! ## Calls -/

/-- What a running program asks of its heap. -/
inductive Request
  | init (heap roots : Int)
  | malloc (size : Int)
  | collect (live : Int)
  | push (r : Option Ref)
  | pop
  | top
  | destroy
  | load (addr : Word)
  | store (addr w : Word)

def Request.perform : Request → Call Unit
  | init heap roots => do let _ ← Call.init heap roots
  | malloc size => do let _ ← Call.malloc size
  | collect live => Call.collect live
  | push r => do let _ ← Call.push r
  | pop => do let _ ← Call.pop
  | top => do let _ ← Call.top
  | destroy => Call.destroy
  | load addr => do let _ ← Call.load addr
  | store addr w => Call.store addr w

/-- A pass that a call starts, and how it ends: a collection starts one over the roots it is told,
an allocation that does not fit one over all roots. -/
inductive Request.Starts (p : Program) : Request → EStateM.Result Error Pass Unit → Prop
  | malloc {size : Int} {words : Nat} {c : Collector} : p.slot = some c → c.phase ≠ .poisoned →
      wordsForBytes size = .ok words → c.cursor.fits words = false →
      Starts p (.malloc size) (c.relocateLive c.roots.top).2
  | collect {live : Nat} {c : Collector} : p.slot = some c → c.phase ≠ .poisoned → live ≤ c.roots.top →
      Starts p (.collect live) (c.relocateLive live).2

/-- The collector in the slot cannot be used any more. -/
def Program.Poisoned (p : Program) : Prop := ∃ c, p.slot = some c ∧ c.phase = .poisoned

namespace Call

variable {α : Type} {call : EntryPoint} {op : Mutator α} {p p' : Program} {c : Collector} {e : Error} {s : Session}

theorem run_onCollector_none (call : EntryPoint) (op : Mutator α) (h : p.slot = none) :
    ∃ p', (onCollector call op).run p = .ok none p' ∧ p'.slot = none := by
  unfold onCollector
  rw [run_get_bind, h]
  exact ⟨_, rfl, h⟩

theorem run_onCollector_fatal (call : EntryPoint) (hc : p.slot = some c) (h : op.run ⟨c, p.journal⟩ = .error e s)
    (hf : e.isFatal = true) :
    ∃ p', (onCollector call op).run p = .error (exitStatus e.exitCode) p' ∧ p'.slot = none := by
  unfold onCollector
  rw [run_get_bind, hc]
  dsimp only
  rw [h]
  dsimp only
  rw [if_pos hf]
  exact ⟨_, rfl, rfl⟩

theorem run_onCollector_refused (call : EntryPoint) (hc : p.slot = some c) (h : op.run ⟨c, p.journal⟩ = .error e s)
    (hf : ¬ e.isFatal = true) :
    ∃ p', (onCollector call op).run p = .ok none p' ∧ p'.slot = some s.collector := by
  unfold onCollector
  rw [run_get_bind, hc]
  dsimp only
  rw [h]
  dsimp only
  rw [if_neg hf]
  exact ⟨_, rfl, rfl⟩

theorem run_onCollector_ok (call : EntryPoint) {a : α} (hc : p.slot = some c) (h : op.run ⟨c, p.journal⟩ = .ok a s) :
    ∃ p', (onCollector call op).run p = .ok (some a) p' ∧ p'.slot = some s.collector := by
  unfold onCollector
  rw [run_get_bind, hc]
  dsimp only
  rw [h]
  exact ⟨_, rfl, rfl⟩

/-- A call that returns leaves the collector in the slot that its operation left. -/
theorem slot_onCollector {r : Option α} (h : (onCollector call op).run p = .ok r p') :
    p'.slot = p.slot.map fun c => (endState (op.run ⟨c, p.journal⟩)).collector := by
  cases hc : p.slot with
  | none =>
    obtain ⟨_, hr, hs⟩ := run_onCollector_none call op hc
    rw [hr] at h
    cases h
    exact hs
  | some c =>
    cases ho : op.run ⟨c, p.journal⟩ with
    | ok a s =>
      obtain ⟨_, hr, hs⟩ := run_onCollector_ok call hc ho
      rw [hr] at h
      cases h
      rw [hs, Option.map_some, ho]
      rfl
    | error e s =>
      by_cases hf : e.isFatal = true
      · obtain ⟨_, hr, _⟩ := run_onCollector_fatal call hc ho hf
        rw [hr] at h
        cases h
      · obtain ⟨_, hr, hs⟩ := run_onCollector_refused call hc ho hf
        rw [hr] at h
        cases h
        rw [hs, Option.map_some, ho]
        rfl

/-- How a call ends whose operation failed in a pass. -/
theorem run_onCollector_pass (call : EntryPoint) (hc : p.slot = some c) (h : op.run ⟨c, p.journal⟩ = .error e s)
    (ho : e.OfPass) (hs : s.collector.phase = .poisoned) :
    ((∀ a, e ≠ .invalidReference a) ∧
      ∃ p', (onCollector call op).run p = .error (exitStatus e.exitCode) p' ∧ p'.slot = none) ∨
    ((∃ a, e = .invalidReference a) ∧ ∃ p', (onCollector call op).run p = .ok none p' ∧ p'.Poisoned) := by
  by_cases hf : e.isFatal = true
  · exact Or.inl ⟨ho.isFatal_iff.mp hf, run_onCollector_fatal call hc h hf⟩
  · refine Or.inr ⟨?_, ?_⟩
    · have := fun hn => hf (ho.isFatal_iff.mpr hn)
      simpa using this
    · obtain ⟨p', hr, hp⟩ := run_onCollector_refused call hc h hf
      exact ⟨p', hr, s.collector, hp, hs⟩

/-- A call whose operation keeps the collector usable leaves a usable one. -/
theorem not_poisoned_onCollector {r : Option α} (h : (onCollector call op).run p = .ok r p')
    (ho : ∀ c, p.slot = some c → Mutator.part Collector.phase (endState (op.run ⟨c, p.journal⟩)) ≠ .poisoned) : ¬ p'.Poisoned := by
  intro hex
  obtain ⟨c', hc', hp⟩ := hex
  rw [slot_onCollector h, Option.map_eq_some_iff] at hc'
  obtain ⟨c, hc, rfl⟩ := hc'
  exact ho c hc hp

/-! ## Calls that start no pass -/

theorem usable_init {heap roots : Int} {b : Bool} (hp : ¬ p.Poisoned) (h : (init heap roots).run p = .ok b p') :
    ¬ p'.Poisoned := by
  unfold init at h
  rw [run_get_bind] at h
  by_cases hs : p.slot.isSome = true
  · rw [if_pos hs] at h
    cases h
    exact hp
  rw [if_neg hs] at h
  by_cases hn : heap < 0 ∨ roots < 0
  · rw [if_pos hn] at h
    cases h
    exact hp
  rw [if_neg hn] at h
  dsimp only at h
  split at h
  · rename_i c j hc
    cases h
    intro hex
    obtain ⟨c', hc', hq⟩ := hex
    cases hc'
    rw [(Collector.create_fresh hc).phase] at hq
    cases hq
  · split at h
    · cases h
    · cases h
      exact hp

theorem usable_push {r : Option Ref} {b : Bool} (hp : ¬ p.Poisoned) (h : (push r).run p = .ok b p') :
    ¬ p'.Poisoned := by
  unfold push at h
  cases r with
  | none => cases h; exact hp
  | some r =>
    cases hx : (onCollector .push (Mutator.rootPush r)).run p with
    | error e p₁ => rw [run_bind_error hx] at h; cases h
    | ok o p₁ =>
      rw [run_bind_ok hx] at h
      cases h
      refine not_poisoned_onCollector hx fun c hc => ?_
      exact ne_of_eq_of_ne (Mutator.keeps_rootPush (P := Mutator.part Collector.phase) (fun _ _ => rfl)
        (fun _ _ => rfl) r _) fun hq => hp ⟨c, hc, hq⟩

theorem usable_pop {r : Option Ref} (hp : ¬ p.Poisoned) (h : pop.run p = .ok r p') : ¬ p'.Poisoned := by
  refine not_poisoned_onCollector h fun c hc => ?_
  exact ne_of_eq_of_ne (Mutator.keeps_rootPop (P := Mutator.part Collector.phase) (fun _ _ => rfl) _)
    fun hq => hp ⟨c, hc, hq⟩

theorem usable_top {n : Nat} (hp : ¬ p.Poisoned) (h : top.run p = .ok n p') : ¬ p'.Poisoned := by
  unfold top at h
  rw [run_get_bind] at h
  split at h
  · cases h; exact hp
  · cases h; exact hp

theorem usable_destroy (hp : ¬ p.Poisoned) (h : destroy.run p = .ok () p') : ¬ p'.Poisoned := by
  unfold destroy at h
  rw [run_get_bind] at h
  cases hs : p.slot with
  | none =>
    rw [hs] at h
    cases h
    exact hp
  | some c =>
    rw [hs, if_pos Option.isSome_some] at h
    unfold release at h
    cases h
    dsimp only
    rw [hs]
    intro hex
    obtain ⟨c', hc', _⟩ := hex
    cases hc'

theorem usable_load {addr w : Word} (hp : ¬ p.Poisoned) (h : (load addr).run p = .ok w p') : ¬ p'.Poisoned := by
  unfold load at h
  rw [run_get_bind] at h
  split at h
  · cases h
  · cases h; exact hp

theorem usable_store {addr w : Word} (hp : ¬ p.Poisoned) (h : (store addr w).run p = .ok () p') : ¬ p'.Poisoned := by
  unfold store at h
  rw [run_get_bind] at h
  cases hs : p.slot with
  | none => rw [hs] at h; cases h
  | some c =>
    rw [hs] at h
    dsimp only at h
    cases ha : c.arena.store? addr w with
    | none => rw [ha] at h; cases h
    | some arena =>
      rw [ha] at h
      cases h
      intro hex
      obtain ⟨c', hc', hq⟩ := hex
      cases hc'
      exact hp ⟨c, hs, hq⟩

end Call

namespace Request

variable {p p' : Program} {x : Request} {e : Error} {q : Pass}

/-- How a call ends whose pass fails. -/
theorem Starts.run_error (h : x.Starts p (.error e q)) :
    ((∀ a, e ≠ .invalidReference a) ∧
      ∃ p', x.perform.run p = .error (exitStatus e.exitCode) p' ∧ p'.slot = none) ∨
    ((∃ a, e = .invalidReference a) ∧ ∃ p', x.perform.run p = .ok () p' ∧ p'.Poisoned) := by
  generalize hr : (EStateM.Result.error e q : EStateM.Result Error Pass Unit) = r at h
  cases h with
  | @malloc size words c hc hp hw hf =>
    obtain ⟨s, hrun, hs⟩ := Mutator.run_allocate_error (s := ⟨c, p.journal⟩) hp hf hr.symm
    have hm : Call.malloc size = Call.onCollector .malloc (Mutator.allocate words) := by
      unfold Call.malloc
      rw [hw]
    unfold perform
    dsimp only
    rw [hm]
    rcases Call.run_onCollector_pass .malloc hc hrun (Collector.relocateLive_raises hr.symm) hs with
      ⟨hn, p', hx, hp'⟩ | ⟨ha, p', hx, hp'⟩
    · exact Or.inl ⟨hn, p', run_bind_error hx _, hp'⟩
    · exact Or.inr ⟨ha, p', run_bind_ok hx _, hp'⟩
  | @collect live c hc hp hl =>
    obtain ⟨s, hrun, hs⟩ := Mutator.run_collect_error (s := ⟨c, p.journal⟩) hp hl hr.symm
    unfold perform Call.collect
    dsimp only
    rw [if_neg (Int.not_lt.mpr (Int.natCast_nonneg live)), Int.toNat_natCast]
    rcases Call.run_onCollector_pass .collect hc hrun (Collector.relocateLive_raises hr.symm) hs with
      ⟨hn, p', hx, hp'⟩ | ⟨ha, p', hx, hp'⟩
    · exact Or.inl ⟨hn, p', run_bind_error hx _, hp'⟩
    · exact Or.inr ⟨ha, p', run_bind_ok hx _, hp'⟩

theorem run_discard_ok {ε σ α : Type} {y : EStateM ε σ α} {s s' : σ}
    (h : (y >>= fun _ => pure ()).run s = .ok () s') : ∃ a, y.run s = .ok a s' := by
  obtain ⟨a, _, hr, hrest⟩ := exists_of_run_bind h
  cases hrest
  exact ⟨a, hr⟩

/-- A pass that fails in a call that returns fails with an invalid reference. -/
theorem Starts.of_returned (h : x.perform.run p = .ok () p') (hs : x.Starts p (.error e q)) :
    ∃ a q, x.Starts p (.error (.invalidReference a) q) := by
  rcases hs.run_error with ⟨_, _, hr, _⟩ | ⟨⟨a, rfl⟩, _⟩
  · rw [hr] at h
    cases h
  · exact ⟨a, q, hs⟩

theorem Starts.of_malloc {size : Int} (hp : ∀ c, p.slot = some c → c.phase ≠ .poisoned)
    (h : (Request.malloc size).perform.run p = .ok () p') (hp' : p'.Poisoned) :
    ∃ e q, (Request.malloc size).Starts p (.error e q) := by
  obtain ⟨r, hr⟩ := run_discard_ok h
  unfold Call.malloc at hr
  cases hw : wordsForBytes size with
  | error e =>
    rw [hw] at hr
    cases hr
    exact absurd hp' fun ⟨c, hc, hq⟩ => hp c hc hq
  | ok words =>
    rw [hw] at hr
    by_cases hs : ∃ c e q, p.slot = some c ∧ c.cursor.fits words = false ∧
        (c.relocateLive c.roots.top).2 = .error e q
    · obtain ⟨c, e, q, hc, hf, he⟩ := hs
      exact ⟨e, q, he ▸ .malloc hc (hp c hc) hw hf⟩
    · refine absurd hp' (Call.not_poisoned_onCollector hr fun c hc => ?_)
      exact Mutator.phase_allocate (hp c hc) fun hf e q he => hs ⟨c, e, q, hc, hf, he⟩

theorem Starts.of_collect {live : Int} (hp : ∀ c, p.slot = some c → c.phase ≠ .poisoned)
    (h : (Request.collect live).perform.run p = .ok () p') (hp' : p'.Poisoned) :
    ∃ e q, (Request.collect live).Starts p (.error e q) := by
  have hr : (Call.collect live).run p = .ok () p' := h
  unfold Call.collect at hr
  by_cases hl : live < 0
  · rw [if_pos hl] at hr
    cases hr
    exact absurd hp' fun ⟨c, hc, hq⟩ => hp c hc hq
  rw [if_neg hl] at hr
  obtain ⟨r, hr⟩ := run_discard_ok hr
  obtain ⟨n, rfl⟩ := Int.eq_ofNat_of_zero_le (Int.not_lt.mp hl)
  by_cases hs : ∃ c e q, p.slot = some c ∧ n ≤ c.roots.top ∧ (c.relocateLive n).2 = .error e q
  · obtain ⟨c, e, q, hc, hn, he⟩ := hs
    exact ⟨e, q, he ▸ .collect hc (hp c hc) hn⟩
  · refine absurd hp' (Call.not_poisoned_onCollector hr fun c hc => ?_)
    exact Mutator.phase_collect (hp c hc) fun hn e q he => hs ⟨c, e, q, hc, hn, he⟩

/-- Only a pass that fails with an invalid reference leaves a poisoned collector to a program. -/
theorem starts_of_poisoned (hp : ¬ p.Poisoned) (h : x.perform.run p = .ok () p') (hp' : p'.Poisoned) :
    ∃ a q, x.Starts p (.error (.invalidReference a) q) := by
  have husable : ∀ c, p.slot = some c → c.phase ≠ .poisoned := fun c hc hq => hp ⟨c, hc, hq⟩
  cases x with
  | init heap roots =>
    obtain ⟨b, hr⟩ := run_discard_ok h
    exact absurd hp' (Call.usable_init hp hr)
  | malloc size =>
    obtain ⟨e, q, hs⟩ := Starts.of_malloc husable h hp'
    exact hs.of_returned h
  | collect live =>
    obtain ⟨e, q, hs⟩ := Starts.of_collect husable h hp'
    exact hs.of_returned h
  | push r =>
    obtain ⟨b, hr⟩ := run_discard_ok h
    exact absurd hp' (Call.usable_push hp hr)
  | pop =>
    obtain ⟨r, hr⟩ := run_discard_ok h
    exact absurd hp' (Call.usable_pop hp hr)
  | top =>
    obtain ⟨n, hr⟩ := run_discard_ok h
    exact absurd hp' (Call.usable_top hp hr)
  | destroy => exact absurd hp' (Call.usable_destroy hp h)
  | load addr =>
    obtain ⟨w, hr⟩ := run_discard_ok h
    exact absurd hp' (Call.usable_load hp hr)
  | store addr w => exact absurd hp' (Call.usable_store hp h)

/-- A sequence of calls that leaves a poisoned collector has one whose pass failed with an invalid
reference. -/
theorem starts_of_poisoned_run : ∀ {xs : List Request} {p : Program}, ¬ p.Poisoned →
    (xs.forM perform).run p = .ok () p' → p'.Poisoned →
    ∃ ys x zs p₁ a q, xs = ys ++ x :: zs ∧ (ys.forM perform).run p = .ok () p₁ ∧
      x.Starts p₁ (.error (.invalidReference a) q)
  | [], p, hp, h, hp' => by
    cases h
    exact absurd hp' hp
  | x :: xs, p, hp, h, hp' => by
    change (x.perform >>= fun _ => xs.forM perform).run p = _ at h
    cases hx : x.perform.run p with
    | error e p₁ => rw [run_bind_error hx] at h; cases h
    | ok u p₁ =>
      rw [run_bind_ok hx] at h
      by_cases hq : p₁.Poisoned
      · obtain ⟨a, q, hs⟩ := starts_of_poisoned hp hx hq
        exact ⟨[], x, xs, p, a, q, rfl, rfl, hs⟩
      · obtain ⟨ys, y, zs, p₂, a, q, rfl, hy, hs⟩ := starts_of_poisoned_run hq h hp'
        refine ⟨x :: ys, y, zs, p₂, a, q, rfl, ?_, hs⟩
        show (x.perform >>= fun _ => ys.forM perform).run p = _
        rw [run_bind_ok hx]
        exact hy

end Request

/-! ## Failed passes -/

theorem Program.start_usable (machine : Machine) (environment : Environment) :
    ¬ (Program.start machine environment).Poisoned := by
  intro hex
  obtain ⟨c, hc, _⟩ := hex
  cases hc

/-- After any calls, a call whose pass fails ends the process with the exit code of the error, and the
heap is released, unless the error is an invalid reference. Then the call returns with a poisoned
collector in the slot; and there is a poisoned collector in the slot only after such a call. -/
theorem failed_pass_ends_process {p p' : Program} {xs : List Request} (hp : ¬ p.Poisoned)
    (h : (xs.forM Request.perform).run p = .ok () p') :
    (∀ (x : Request) (e : Error) (q : Pass), x.Starts p' (.error e q) →
      ((∃ p'', x.perform.run p' = .error (exitStatus e.exitCode) p'' ∧ p''.slot = none) ↔
        ∀ a, e ≠ .invalidReference a) ∧
      ((∃ p'', x.perform.run p' = .ok () p'' ∧ p''.Poisoned) ↔ ∃ a, e = .invalidReference a)) ∧
    (p'.Poisoned → ∃ ys x zs p₁ a q, xs = ys ++ x :: zs ∧ (ys.forM Request.perform).run p = .ok () p₁ ∧
      x.Starts p₁ (.error (.invalidReference a) q)) := by
  refine ⟨?_, Request.starts_of_poisoned_run hp h⟩
  intro x e q hs
  rcases hs.run_error with ⟨hn, p', hr, hs⟩ | ⟨⟨a, rfl⟩, p', hr, hs⟩
  · refine ⟨⟨fun _ => hn, fun _ => ⟨p', hr, hs⟩⟩, ?_, fun ⟨a, ha⟩ => absurd ha (hn a)⟩
    intro hex
    obtain ⟨_, h', _⟩ := hex
    rw [hr] at h'
    cases h'
  · refine ⟨⟨?_, fun hn => absurd rfl (hn a)⟩, fun _ => ⟨a, rfl⟩, fun _ => ⟨p', hr, hs⟩⟩
    intro hex
    obtain ⟨_, h', _⟩ := hex
    rw [hr] at h'
    cases h'

/-- Makes an object of three words with the given words the only root. -/
def Request.plant (first second third : Word) : List Request := [
  .init 64 4, .malloc 24, .push (Ref.ofWord? 0x600000000000), .store 0x600000000000 first,
  .store 0x600000000008 second, .store 0x600000000010 third]

/-- The program in which these words are the only root. -/
def Program.planted (first second third : Word) : Program :=
  endState (((Request.plant first second third).forM Request.perform).run (.start .standard .empty))

theorem Request.starts_of_planted {first second third : Word} {e : Error}
    (h : (Program.planted first second third).slot.map (fun c => (c.phase, c.roots.top, answer (c.relocateLive 1).2)) =
      some (.idle, 1, .error e)) :
    ∃ q, (Request.collect 1).Starts (.planted first second third) (.error e q) := by
  obtain ⟨c, hc, h⟩ := Option.map_eq_some_iff.mp h
  simp only [Prod.mk.injEq] at h
  obtain ⟨hp, ht, ha⟩ := h
  obtain ⟨q, hq⟩ := exists_of_answer_error ha
  have hs : (Request.collect (1 : Nat)).Starts _ _ :=
    .collect hc (by rw [hp]; exact nofun) (Nat.le_of_eq ht.symm)
  rw [hq] at hs
  exact ⟨q, hs⟩

/-- A tag that is none ends the process with the exit code -3. -/
theorem failed_pass_ends_process_unknown_tag :
    ((Request.plant 7 1 0).forM Request.perform).run (.start .standard .empty) = .ok () (.planted 7 1 0) ∧
    ∃ e q p', (Request.collect 1).Starts (.planted 7 1 0) (.error e q) ∧ (∀ a, e ≠ .invalidReference a) ∧
      (Request.collect 1).perform.run (.planted 7 1 0) = .error 253 p' ∧ p'.slot = none := by
  have hrun : ((Request.plant 7 1 0).forM Request.perform).run (.start .standard .empty) = .ok () (.planted 7 1 0) := by
    obtain ⟨u, p, hr⟩ := exists_of_isSome (r := ((Request.plant 7 1 0).forM Request.perform).run
      (.start .standard .empty)) (by decide +kernel)
    have hp : Program.planted 7 1 0 = p := congrArg endState hr
    rw [hp]
    exact hr
  obtain ⟨q, hs⟩ := @Request.starts_of_planted 7 1 0
    (.corruptObject 0x600000000000 (.unknownTag 7)) (by decide +kernel)
  have he : ∀ a, Error.corruptObject 0x600000000000 (.unknownTag 7) ≠ .invalidReference a := fun _ => nofun
  obtain ⟨p', hr, hp⟩ := ((failed_pass_ends_process (Program.start_usable _ _) hrun).1 _ _ q hs).1.mpr he
  exact ⟨hrun, _, q, p', hs, he, hr, hp⟩

/-- A slot that refers to nothing lets the call return, with a poisoned collector in the slot. -/
theorem failed_pass_returns :
    ∃ q p', (Request.collect 1).Starts (.planted 2 1 12345) (.error (.invalidReference 12345) q) ∧
      (Request.collect 1).perform.run (.planted 2 1 12345) = .ok () p' ∧ p'.Poisoned := by
  obtain ⟨q, hs⟩ := @Request.starts_of_planted 2 1 12345
    (.invalidReference 12345) (by decide +kernel)
  rcases hs.run_error with ⟨hn, _⟩ | ⟨_, p', hr, hp⟩
  · exact absurd rfl (hn 12345)
  · exact ⟨q, p', hs, hr, hp⟩

end Semispace

import Semispace.Proofs.Collector.Passes

/-!
# Whatever a program does

An operation runs at most one pass (`Action.Starts`) and then ends as described by `Passed`; one that
runs none changes nothing of the frame. So whatever a program does, the cursor stays one over the
active half (`Reachable.wellFormed`), and the halves change places as often as a pass completes.
-/

namespace Semispace

/-- An operation on a collector, with any arguments. -/
inductive Action
  | allocate (words : Nat)
  | allocInt (v : Int64)
  | allocBool (v : Bool)
  | allocVector (elements : List (Option Ref))
  | vectorSet (r : Ref) (i : Nat) (value : Option Ref)
  | writeWord (r : Ref) (i : Nat) (w : Word)
  | rootPush (r : Ref)
  | rootPop
  | collect (live : Nat)
  | updateLogger (f : Logger → Logger)

def Action.perform : Action → Mutator Unit
  | allocate words => do let _ ← Mutator.allocate words
  | allocInt v => do let _ ← Mutator.allocInt v
  | allocBool v => do let _ ← Mutator.allocBool v
  | allocVector elements => do let _ ← Mutator.allocVector elements
  | vectorSet r i value => Mutator.vectorSet r i value
  | writeWord r i w => Mutator.writeWord r i w
  | rootPush r => Mutator.rootPush r
  | rootPop => do let _ ← Mutator.rootPop
  | collect live => do let _ ← Mutator.collect live
  | updateLogger f => Mutator.updateLogger f

/-- The operation may change more than the logger. -/
def Action.Mutates : Action → Prop
  | updateLogger _ => False
  | _ => True

/-! ## Which operations run a pass -/

/-- The operation runs a pass, in the session `t` and over its `live` lowest roots. -/
inductive Action.Starts (s : Session) : Action → Session → Nat → Prop
  | allocate {words : Nat} : s.collector.phase ≠ .poisoned → s.collector.cursor.fits words = false →
      Starts s (.allocate words) (s.triggered words) s.collector.roots.top
  | allocInt {v : Int64} : s.collector.phase ≠ .poisoned → s.collector.cursor.fits headerWords = false →
      Starts s (.allocInt v) (s.triggered headerWords) s.collector.roots.top
  | allocBool {v : Bool} : s.collector.phase ≠ .poisoned → s.collector.cursor.fits headerWords = false →
      Starts s (.allocBool v) (s.triggered headerWords) s.collector.roots.top
  | allocVector {elements : List (Option Ref)} {t : Session} : s.collector.phase ≠ .poisoned → Rooted s elements t →
      t.collector.cursor.fits (Header.vectorWords elements.length) = false →
      Starts s (.allocVector elements) (t.triggered (Header.vectorWords elements.length)) t.collector.roots.top
  | collect {live : Nat} : s.collector.phase ≠ .poisoned → live ≤ s.collector.roots.top → Starts s (.collect live) s live

namespace Action

variable {s t : Session} {live : Nat} {x : Action}

theorem run_poisoned (hp : s.collector.phase = .poisoned) (hx : x.Mutates) : x.perform.run s = .error .poisoned s := by
  have hrun : ∀ {α : Type} (f : Unit → Mutator α), (Mutator.ensureUsable >>= f).run s = .error .poisoned s :=
    fun f => Mutator.run_ensureUsable_poisoned hp f
  cases x with
  | allocate words => exact run_bind_error (hrun _) _
  | allocInt v => exact run_bind_error (run_bind_error (hrun _) _) _
  | allocBool v => exact run_bind_error (run_bind_error (hrun _) _) _
  | allocVector elements => exact run_bind_error (hrun _) _
  | vectorSet r i value => exact hrun _
  | writeWord r i w => exact hrun _
  | rootPush r => exact hrun _
  | rootPop => exact run_bind_error (hrun _) _
  | collect live => exact run_bind_error (hrun _) _
  | updateLogger f => exact absurd hx not_false

theorem Starts.passed (h : x.Starts s t live) :
    Passed t live ((t.collector.rootsAfter live).take s.collector.roots.top) (x.perform.run s) := by
  have hall : ∀ live, (s.collector.rootsAfter live).take s.collector.roots.top = s.collector.rootsAfter live :=
    fun live => List.take_of_length_le (Nat.le_of_eq (s.collector.length_rootsAfter live))
  cases h with
  | allocate hp hf => exact ((hall _).symm ▸ Mutator.passed_allocate hp hf).bind fun _ => .pure _
  | allocInt hp hf => exact ((hall _).symm ▸ Mutator.passed_allocScalar hp _ _ hf).bind fun _ => .pure _
  | allocBool hp hf => exact ((hall _).symm ▸ Mutator.passed_allocScalar hp _ _ hf).bind fun _ => .pure _
  | @allocVector elements t hp hr hf =>
    have hb := Mutator.passed_buildVector (hr.usable hp) s.collector.roots.top hf
    rw [← Mutator.run_allocVector hp hr] at hb
    exact hb.bind fun _ => .pure _
  | collect hp hl => exact ((hall _).symm ▸ Mutator.passed_collect hp hl).bind fun _ => .pure _

theorem frame_of_not_starts (h : ∀ t live, ¬ x.Starts s t live) :
    (endState (x.perform.run s)).collector.frame = s.collector.frame := by
  by_cases hp : s.collector.phase = .poisoned
  · by_cases hx : x.Mutates
    · rw [run_poisoned hp hx]
      rfl
    · cases x with
      | updateLogger f => rfl
      | _ => exact absurd trivial hx
  cases x with
  | allocate words =>
    have hf := eq_true_of_ne_false fun hf => h _ _ (.allocate hp hf)
    exact Keeps.run_bind (Mutator.frame_allocate hf) fun _ => .pure _
  | allocInt v =>
    have hf := eq_true_of_ne_false fun hf => h _ _ (.allocInt hp hf)
    exact Keeps.run_bind (Mutator.frame_allocScalar _ _ hf) fun _ => .pure _
  | allocBool v =>
    have hf := eq_true_of_ne_false fun hf => h _ _ (.allocBool hp hf)
    exact Keeps.run_bind (Mutator.frame_allocScalar _ _ hf) fun _ => .pure _
  | allocVector elements =>
    refine Keeps.run_bind (Mutator.frame_allocVector hp fun t ht => ?_) fun _ => .pure _
    exact eq_true_of_ne_false fun hf => h _ _ (.allocVector hp ht hf)
  | vectorSet r i value => exact Mutator.keeps_frame_vectorSet r i value s
  | writeWord r i w => exact Mutator.keeps_frame_writeWord r i w s
  | rootPush r => exact Mutator.keeps_rootPush (P := Mutator.part Collector.frame) (fun _ _ => rfl) (fun _ _ => rfl) r s
  | rootPop => exact ((Mutator.keeps_rootPop (P := Mutator.part Collector.frame) fun _ _ => rfl).bind fun _ => .pure _) s
  | collect live =>
    have hl : s.collector.roots.top < live := Nat.not_le.mp fun hl => h _ _ (.collect hp hl)
    exact Keeps.run_bind (Mutator.frame_collect hl) fun _ => .pure _
  | updateLogger f => rfl

end Action

/-! ## The session in which a pass runs -/

/-- The session `t` differs from `s` only in what an operation does before it runs a pass: its elements
are on the root stack, and the want of room is counted and reported. -/
structure Session.Begins (s t : Session) : Prop where
  arena : t.collector.arena = s.collector.arena
  cursor : t.collector.cursor = s.collector.cursor
  cycles : t.collector.cycles = s.collector.cycles
  stats : ∃ n, t.collector.stats = { s.collector.stats with allocationTriggered := n }
  roots : s.collector.roots.toList <+: t.collector.roots.toList

theorem Session.begins_self (s : Session) : s.Begins s := ⟨rfl, rfl, rfl, ⟨_, rfl⟩, List.prefix_refl _⟩

theorem Session.begins_triggered (s : Session) (words : Nat) : s.Begins (s.triggered words) :=
  ⟨rfl, rfl, rfl, ⟨_, rfl⟩, List.prefix_refl _⟩

namespace Action

variable {s t : Session} {live : Nat} {x : Action}

theorem Starts.begins (h : x.Starts s t live) : s.Begins t := by
  cases h with
  | allocate _ _ => exact s.begins_triggered _
  | allocInt _ _ => exact s.begins_triggered _
  | allocBool _ _ => exact s.begins_triggered _
  | @allocVector elements t _ hr _ =>
    obtain ⟨roots, rfl⟩ : ∃ roots, t = { s with collector := { s.collector with roots } } := ⟨_, hr.rest⟩
    exact ⟨rfl, rfl, rfl, ⟨_, rfl⟩, _, hr.roots.symm⟩
  | collect _ _ => exact s.begins_self

end Action

namespace Action.Starts

variable {s t : Session} {live : Nat} {x : Action}

theorem usable (h : x.Starts s t live) : s.collector.phase ≠ .poisoned := by
  cases h <;> assumption

/-- The live roots of the pass: roots already, or elements of a vector that were found good. -/
theorem live_roots (h : x.Starts s t live) {r : Ref} (hr : r ∈ t.collector.roots.bottom live) :
    r ∈ s.collector.roots.toList ∨ ∃ elements, x = .allocVector elements ∧ r ∈ elements.filterMap id ∧
      ∃ found, s.collector.checkObject r = .ok found := by
  have hmem := List.mem_of_mem_take hr
  cases h with
  | @allocVector elements t _ hrooted _ =>
    have hmem : r ∈ t.collector.roots.toList := hmem
    rw [hrooted.roots] at hmem
    rcases List.mem_append.mp hmem with h | h
    · exact Or.inl h
    · exact Or.inr ⟨elements, rfl, h, hrooted.objects r h⟩
  | _ => exact Or.inl hmem

end Action.Starts

/-! ## Whatever a program does -/

/-- An operation keeps the shape; it completes a pass and exchanges the halves, or does neither. -/
theorem Action.exchanges (x : Action) (s : Session) :
    let c' := (endState (x.perform.run s)).collector
    c'.shape = s.collector.shape ∧
    (c'.cycles = s.collector.cycles ∧ c'.arena.active = s.collector.arena.active ∨
      c'.cycles = s.collector.cycles + 1 ∧ c'.arena.active = s.collector.arena.inactive) := by
  intro c'
  by_cases hx : ∃ t live, x.Starts s t live
  · obtain ⟨t, live, hx⟩ := hx
    obtain ⟨hshape, hcycles⟩ := hx.passed.exchanges
    have b := hx.begins
    unfold Collector.shape at hshape ⊢
    rw [b.arena, b.cursor] at hshape
    rw [b.arena, b.cycles] at hcycles
    exact ⟨hshape, hcycles⟩
  · have he := frame_of_not_starts (x := x) (s := s) fun t live h => hx ⟨t, live, h⟩
    refine ⟨congrArg (fun f => (f.layout, f.capacity)) he, Or.inl ⟨?_, ?_⟩⟩
    · exact congrArg Collector.Frame.cycles he
    · exact congrArg Collector.Frame.active he

/-- The sessions that a program can bring about, whatever it asks of its collector. -/
inductive Reachable (machine : Machine) (config : Config) : Session → Prop
  | start {j j' : Journal} {c : Collector} :
    (Collector.create machine config).run j = .ok c j' → Reachable machine config ⟨c, j'⟩
  | step {s : Session} (x : Action) : Reachable machine config s → Reachable machine config (endState (x.perform.run s))

theorem Reachable.wellFormed {machine : Machine} {config : Config} {s : Session} (h : Reachable machine config s) :
    s.collector.WellFormed := by
  induction h with
  | start hc => exact (Collector.create_fresh hc).wellFormed
  | step x _ ih => exact ih.of_shape (x.exchanges _).1

/-- The session after some operations, whatever each of them answers. -/
def Session.after (s : Session) (xs : List Action) : Session :=
  xs.foldl (fun s x => endState (x.perform.run s)) s

end Semispace

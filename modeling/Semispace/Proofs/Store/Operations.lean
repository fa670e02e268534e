import Semispace.Collector.Mutation
import Semispace.Proofs.Store.Allocation
import Semispace.Proofs.Store.Slot

/-!
# Operations on a represented store

Every operation of a program that is given live objects does what the store does, at the addresses
of the moment (`Represents.perform`). Passes change the addresses and nothing else; only for want of
memory does a collector refuse what the store does.
-/

namespace Semispace

/-- An operation on a collector, with the reference it answers, if any. -/
def Op.perform : Op Ref → Mutator (Option Ref)
  | allocInt v => do return some (← Mutator.allocInt v)
  | allocBool v => do return some (← Mutator.allocBool v)
  | allocVector elements => do return some (← Mutator.allocVector elements)
  | vectorSet r i value => do Mutator.vectorSet r i value; return none
  | rootPush r => do Mutator.rootPush r; return none
  | rootPop => do return some (← Mutator.rootPop)
  | collect => do
    let _ ← Mutator.collect (← Mutator.collector).roots.top
    return none

theorem Op.run_collect {s s' : Session} {x : CycleSummary}
    (h : (Mutator.collect s.collector.roots.top).run s = .ok x s') : Op.collect.perform.run s = .ok none s' := by
  show (Mutator.collector >>= fun c => Mutator.collect c.roots.top >>= _).run s = _
  rw [Mutator.run_collector_bind, run_bind_ok h]
  rfl

/-- The answer of a collector with `space` words to an operation is that of the store at the addresses
afterwards, and the store goes on accordingly. Only a new object may be denied instead, when it does
not fit beside all that the stack and its own slots reach. -/
inductive Agrees (space : Nat) (st : Store) (op : Op Nat) (place : Nat → Ref) :
    Except Error (Option Ref) → Option Nat → Store → Prop
  | done {a : Option Nat} {st' : Store} :
    st.perform op = .ok (a, st') → Agrees space st op place (.ok (a.map place)) a st'
  | refused {f : Refusal Nat} :
    st.perform op = .error f → Agrees space st op place (.error (f.map place).error) none st
  | outOfMemory {x : Content Nat} {available : Nat} :
    st.perform op = .ok (some st.size, st.add x) →
    Store.Full { st with stack := st.stack ++ x.slots.filterMap id } space x.size available →
    Agrees space st op place (.error (.outOfMemory x.size available)) none st

/-- What an operation makes of a collector that represents a store. -/
structure Performed (st : Store) (place : Nat → Ref) (live : Set Nat) (op : Op Nat) (c : Collector)
    (out : EStateM.Result Error Session (Option Ref)) (a : Option Nat) (st' : Store) (place' : Nat → Ref)
    (live' : Set Nat) (rs' : List (Nat × Header)) : Prop where
  represents : Represents st' place' live' rs' (endState out).collector
  moves : Moves place live c place' live' (endState out).collector
  agrees : Agrees c.arena.spaceWords st op place' (answer out) a st'
  answered : ∀ i, a = some i → i ∈ live'

namespace Performed

variable {st st' : Store} {place place' : Nat → Ref} {live live' : Set Nat} {op : Op Nat} {c : Collector}
  {out : EStateM.Result Error Session (Option Ref)} {s' : Session} {rs' : List (Nat × Header)}

theorem done {a : Option Nat} (hout : out = .ok (a.map place') s') (R : Represents st' place' live' rs' s'.collector)
    (hm : Moves place live c place' live' s'.collector) (h : st.perform op = .ok (a, st'))
    (ha : ∀ i, a = some i → i ∈ live') : Performed st place live op c out a st' place' live' rs' := by
  subst hout
  exact ⟨R, hm, .done h, ha⟩

theorem refused {f : Refusal Nat} (hout : out = .error (f.map place').error s')
    (R : Represents st place' live' rs' s'.collector) (hm : Moves place live c place' live' s'.collector)
    (h : st.perform op = .error f) : Performed st place live op c out none st place' live' rs' := by
  subst hout
  exact ⟨R, hm, .refused h, nofun⟩

theorem outOfMemory {x : Content Nat} {m : Nat} (hout : out = .error (.outOfMemory x.size m) s')
    (R : Represents st place' live' rs' s'.collector) (hm : Moves place live c place' live' s'.collector)
    (h : st.perform op = .ok (some st.size, st.add x))
    (hf : Store.Full { st with stack := st.stack ++ x.slots.filterMap id } c.arena.spaceWords x.size m) :
    Performed st place live op c out none st place' live' rs' := by
  subst hout
  exact ⟨R, hm, .outOfMemory h hf, nofun⟩

end Performed

namespace Mutator

/-- The slots of a new vector are its elements at their present addresses. -/
theorem refill_eq (f g : Nat → Ref) (elements : List (Option Nat)) :
    refill (elements.map (Option.map f)) ((elements.filterMap id).map g) = elements.map (Option.map g) := by
  have h : (refill (elements.map (Option.map f)) ((elements.filterMap id).map g)).map (Option.map id) =
      elements.map (Option.map g) := map_refill f (List.map_id _)
  rw [Option.map_id_fun, List.map_id_fun] at h
  exact h

end Mutator

namespace Represents

variable {st : Store} {place : Nat → Ref} {live : Set Nat} {rs : List (Nat × Header)} {s : Session}

/-! ## Scalars -/

theorem allocScalar (R : Represents st place live rs s.collector) {y : Content Nat} (hy : y.slots = []) :
    ∃ place' live' rs', (∃ r s', (Mutator.allocScalar y.tag y.second).run s = .ok r s' ∧
        Represents (st.add y) place' live' rs' s'.collector ∧ Moves place live s.collector place' live' s'.collector ∧
        st.size ∈ live' ∧ place' st.size = r) ∨
      ∃ m s', (Mutator.allocScalar y.tag y.second).run s = .error (.outOfMemory y.size m) s' ∧
        Represents st place' live' rs' s'.collector ∧ Moves place live s.collector place' live' s'.collector ∧
        Store.Full { st with stack := st.stack ++ y.slots.filterMap id } s.collector.arena.spaceWords y.size m := by
  have hwords : ∀ f : Nat → Ref, (y.map f).words = [y.tag.word, y.second] := by
    intro f
    simp [Content.words, hy]
  have hsize : y.size = headerWords := by
    rw [Content.size, hy]
    rfl
  obtain ⟨xs, m, C⟩ : ∃ xs m, s.Cleared headerWords xs m := Session.Cleared.exists_of_completes fun _ => R.completes
  obtain ⟨place', live', rs', R', hm, hfull⟩ := R.cleared C
  have hin : ∀ j, some j ∈ y.slots → j ∈ live' := by
    rw [hy]
    exact fun j hj => absurd hj List.not_mem_nil
  have ho := Mutator.obtains_allocScalar C R.wellFormed R.usable y.tag y.second
  rw [← hwords place'] at ho
  rcases R.obtains R' hm hin ho with ⟨place'', live'', rs'', r, s', hrun, R'', hm', hnew⟩ | ⟨s', hrun, hc, hf⟩
  · exact ⟨place'', live'', rs'', Or.inl ⟨r, s', hrun, R'', hm', hnew⟩⟩
  · refine ⟨place', live', rs', Or.inr ⟨_, s', hrun, hc ▸ R', hc ▸ hm, ?_⟩⟩
    rw [hy, List.filterMap_nil, List.append_nil, hsize]
    exact hfull (hsize ▸ hf)

/-! ## The stack -/

theorem top_eq {c : Collector} (R : Represents st place live rs c) : c.roots.top = st.stack.length := by
  have := congrArg List.length R.roots
  rw [List.length_map] at this
  exact this

theorem stack_le {c : Collector} (R : Represents st place live rs c) : st.stack.length ≤ st.capacity := by
  rw [← R.top_eq, ← R.capacity]
  exact c.roots.size_le

theorem pushSlot (R : Represents st place live rs s.collector) {i : Nat} (hi : i ∈ live) :
    (st.stack.length < st.capacity ∧ ∃ s', (Mutator.pushSlot (place i)).run s = .ok () s' ∧
      s'.collector.cycles = s.collector.cycles ∧ Represents { st with stack := st.stack ++ [i] } place live rs s'.collector) ∨
    st.stack.length = st.capacity ∧ ∃ s', (Mutator.pushSlot (place i)).run s = .error (.rootStackOverflow st.capacity) s' ∧
      s'.collector = s.collector := by
  unfold Mutator.pushSlot
  rw [Mutator.run_collector_bind]
  cases hp : s.collector.roots.push (place i) with
  | ok roots =>
    obtain ⟨hl, hc⟩ := RootStack.toList_push hp
    refine Or.inl ⟨?_, _, rfl, rfl, R.restack rfl rfl rfl ?_ ?_ hc⟩
    · have := roots.size_le
      have hlen := congrArg List.length hl
      rw [R.roots, List.length_append, List.length_map, List.length_singleton] at hlen
      have h1 : roots.toList.length = roots.slots.size := rfl
      have h2 := R.capacity
      omega
    · intro j hj
      rcases List.mem_append.mp hj with hj | hj
      · exact R.rooted j hj
      · rw [List.mem_singleton.mp hj]; exact hi
    · show roots.toList = _
      rw [hl, R.roots, List.map_append]
      rfl
  | error e =>
    obtain ⟨hle, rfl⟩ := RootStack.push_eq_error_iff.mp hp
    rw [R.capacity, R.top_eq] at hle
    refine Or.inr ⟨Nat.le_antisymm R.stack_le hle,
      ⟨s.collector, s.journal.report (.rootsFull s.collector.roots.capacity)⟩, ?_, rfl⟩
    rw [← R.capacity]
    rfl

/-- What was pushed is dropped again. -/
theorem truncate {c c' : Collector} {more : List Nat}
    (R : Represents { st with stack := st.stack ++ more } place live rs c) (ha : c'.arena = c.arena)
    (hc : c'.cursor = c.cursor) (hp : c'.phase = c.phase) (hr : c'.roots = c.roots.truncate st.stack.length) :
    Represents st place live rs c' := by
  have hroots : c'.roots.toList = st.stack.map place := by
    rw [hr, RootStack.toList_truncate, R.roots]
    simp
  have hcap : c'.roots.capacity = c.roots.capacity := by
    rw [hr]
    rfl
  exact R.restack ha hc hp (fun i hi => R.rooted i (List.mem_append_left _ hi)) hroots hcap

/-- The elements of a vector on the stack, above the roots. -/
theorem withElements {t : Session} (R : Represents st place live rs s.collector) {elements : List (Option Nat)}
    (hlive : ∀ i ∈ elements.filterMap id, i ∈ live) (x : Rooted s (elements.map (Option.map place)) t) :
    Represents { st with stack := st.stack ++ elements.filterMap id } place live rs t.collector := by
  refine R.restack x.arena x.cursor x.phase ?_ ?_ x.capacity
  · intro i hi
    rcases List.mem_append.mp hi with hi | hi
    · exact R.rooted i hi
    · exact hlive i hi
  · rw [x.roots, R.roots, filterMap_map_map, List.map_append]

/-! ## Vectors -/

theorem allocVector (R : Represents st place live rs s.collector) (elements : List (Option Nat))
    (hlive : ∀ i ∈ elements.filterMap id, i ∈ live) :
    ∃ place' live' rs', (st.stack.length + (elements.filterMap id).length ≤ st.capacity ∧
        ∃ r s', (Mutator.allocVector (elements.map (Option.map place))).run s = .ok r s' ∧
          Represents (st.add (.vector elements)) place' live' rs' s'.collector ∧
          Moves place live s.collector place' live' s'.collector ∧ st.size ∈ live' ∧ place' st.size = r) ∨
      (st.stack.length + (elements.filterMap id).length ≤ st.capacity ∧
        ∃ m s', (Mutator.allocVector (elements.map (Option.map place))).run s =
            .error (.outOfMemory (Content.vector elements).size m) s' ∧
          Represents st place' live' rs' s'.collector ∧ Moves place live s.collector place' live' s'.collector ∧
          Store.Full { st with stack := st.stack ++ elements.filterMap id } s.collector.arena.spaceWords
            (Content.vector elements).size m) ∨
      st.capacity < st.stack.length + (elements.filterMap id).length ∧
        ∃ s', (Mutator.allocVector (elements.map (Option.map place))).run s =
            .error (.rootStackOverflow st.capacity) s' ∧
          Represents st place' live' rs' s'.collector ∧ Moves place live s.collector place' live' s'.collector := by
  have hrefs : (elements.map (Option.map place)).filterMap id = (elements.filterMap id).map place := filterMap_map_map ..
  have hcapacity := R.capacity
  have htop := R.top_eq
  rcases Mutator.run_allocVector_or R.usable (elements.map (Option.map place)) with
    ⟨r, hr, e, he, _⟩ | ⟨_, ⟨hlt, hrun⟩ | ⟨t, x, hrun⟩⟩
  · rw [hrefs] at hr
    obtain ⟨i, hi, rfl⟩ := List.mem_map.mp hr
    obtain ⟨_, _, _, hc, _⟩ := R.checkObject (hlive i hi)
    rw [hc] at he
    cases he
  · rw [hrefs, List.length_map, hcapacity, htop] at hlt
    rw [hcapacity] at hrun
    exact ⟨place, live, rs, Or.inr (Or.inr ⟨hlt, _, hrun, R, .refl⟩)⟩
  · have hle := x.top_le
    rw [hrefs, List.length_map, hcapacity, htop] at hle
    have R₁ := R.withElements hlive x
    obtain ⟨xs, m, C⟩ : ∃ xs m, t.Cleared (Header.vectorWords (elements.map (Option.map place)).length) xs m :=
      Session.Cleared.exists_of_completes fun _ => R₁.completes
    obtain ⟨place', live', rs', R', hm, hfull⟩ := R₁.cleared C
    have hin : ∀ j, some j ∈ (Content.vector elements).slots → j ∈ live' := fun j hj =>
      R'.rooted j (List.mem_append_right _ (List.mem_filterMap.mpr ⟨some j, hj, rfl⟩))
    -- without the elements on the stack, the room is still the room after the records
    have R₂ : Represents st place' live' rs' (m.truncated s.collector.roots.top).collector :=
      R'.truncate rfl rfl rfl (by rw [htop]; rfl)
    have hm : Moves place live s.collector place' live' (m.truncated s.collector.roots.top).collector := fun h =>
      hm (h.trans x.cycles.symm)
    have hrooted : m.collector.roots.toList.drop s.collector.roots.top = (elements.filterMap id).map place' := by
      rw [R'.roots, htop, List.map_append]
      simp
    have ho := Mutator.obtains_buildVector C (x.wellFormed R.wellFormed) (x.usable R.usable) s.collector.roots.top
    rw [hrooted, Mutator.refill_eq, ← hrun] at ho
    rcases R.obtains R₂ hm (y := .vector elements) hin ho with
      ⟨place'', live'', rs'', r, s', hrun', R₃, hm', hnew⟩ | ⟨s', hrun', hc, hf⟩
    · exact ⟨place'', live'', rs'', Or.inl ⟨hle, r, s', hrun', R₃, hm', hnew⟩⟩
    · refine ⟨place', live', rs', Or.inr (Or.inl ⟨hle, _, s', hrun', hc ▸ R₂, hc ▸ hm, ?_⟩)⟩
      rw [x.arena, List.length_map] at hfull
      exact hfull hf

/-! ## The operations of a program -/

theorem rootPush (R : Represents st place live rs s.collector) {i : Nat} (hi : i ∈ live) :
    (st.stack.length < st.capacity ∧ ∃ s', (Mutator.rootPush (place i)).run s = .ok () s' ∧
      s'.collector.cycles = s.collector.cycles ∧ Represents { st with stack := st.stack ++ [i] } place live rs s'.collector) ∨
    st.stack.length = st.capacity ∧ ∃ s', (Mutator.rootPush (place i)).run s = .error (.rootStackOverflow st.capacity) s' ∧
      s'.collector = s.collector := by
  obtain ⟨e, _, _, hc, _⟩ := R.checkObject hi
  rw [Mutator.run_rootPush_ok R.usable hc]
  exact R.pushSlot hi

theorem rootPop (R : Represents st place live rs s.collector) :
    (∃ i s', st.stack.getLast? = some i ∧ Mutator.rootPop.run s = .ok (place i) s' ∧
      s'.collector.cycles = s.collector.cycles ∧
      Represents { st with stack := st.stack.dropLast } place live rs s'.collector) ∨
    st.stack.getLast? = none ∧ Mutator.rootPop.run s = .error .rootStackEmpty s := by
  unfold Mutator.rootPop
  rw [Mutator.run_ensureUsable_bind R.usable, Mutator.run_collector_bind]
  cases hp : s.collector.roots.pop with
  | ok popped =>
    obtain ⟨r, roots⟩ := popped
    obtain ⟨hl, hc⟩ := RootStack.toList_pop hp
    have hmap : st.stack.map place = roots.toList ++ [r] := R.roots.symm.trans hl
    obtain ⟨ids, is, hstack, hids, his⟩ := List.map_eq_append_iff.mp hmap
    obtain ⟨i, rfl, hr⟩ := List.map_eq_singleton_iff.mp his
    refine Or.inl ⟨i, { s with collector := { s.collector with roots } }, ?_, ?_, rfl, ?_⟩
    · rw [hstack, List.getLast?_concat]
    · rw [hr]
      rfl
    · refine R.restack rfl rfl rfl (fun j hj => R.rooted j ((List.dropLast_sublist _).subset hj)) ?_ hc
      rw [hstack, List.dropLast_concat]
      exact hids.symm
  | error e =>
    have hempty : s.collector.roots.slots.back? = none ∧ e = .rootStackEmpty := by
      unfold RootStack.pop at hp
      split at hp
      · next hback => exact ⟨hback, (Except.error.inj hp).symm⟩
      · cases hp
    obtain ⟨hback, rfl⟩ := hempty
    refine Or.inr ⟨?_, rfl⟩
    have hl : s.collector.roots.toList.getLast? = none := by simpa [RootStack.toList] using hback
    rw [R.roots, List.getLast?_map] at hl
    exact Option.map_eq_none_iff.mp hl

theorem collectAll (R : Represents st place live rs s.collector) :
    ∃ place' rs' s' summary, (Mutator.collect s.collector.roots.top).run s = .ok summary s' ∧
      s'.collector.cycles = s.collector.cycles + 1 ∧ Represents st place' {i | st.Reach i} rs' s'.collector := by
  obtain ⟨p, hp⟩ := R.completes
  obtain ⟨s', hrun, hs⟩ := Mutator.run_runCycle_ok .explicit hp
  obtain ⟨_, place', rs', R'⟩ := R.swept hp hs
  exact ⟨place', rs', s', _, (Mutator.run_collect R.usable (Nat.le_refl _)).trans hrun, hs.cycles, R'⟩

/-- An allocator answers with the new object, or leaves the store as it was. -/
theorem performed_alloc {op : Op Nat} {y : Content Nat} {x : Mutator Ref} {place' : Nat → Ref} {live' : Set Nat}
    {rs' : List (Nat × Header)} (hx : (op.map place).perform = (do return some (← x)))
    (hdone : st.perform op = .ok (some st.size, st.add y))
    (h : (∃ r s', x.run s = .ok r s' ∧ Represents (st.add y) place' live' rs' s'.collector ∧
        Moves place live s.collector place' live' s'.collector ∧ st.size ∈ live' ∧ place' st.size = r) ∨
      ∃ m s', x.run s = .error (.outOfMemory y.size m) s' ∧ Represents st place' live' rs' s'.collector ∧
        Moves place live s.collector place' live' s'.collector ∧
        Store.Full { st with stack := st.stack ++ y.slots.filterMap id } s.collector.arena.spaceWords y.size m) :
    ∃ a st' place' live' rs',
      Performed st place live op s.collector ((op.map place).perform.run s) a st' place' live' rs' := by
  rw [hx]
  rcases h with ⟨r, s', hrun, R', hm, hin, rfl⟩ | ⟨m, s', hrun, R', hm, hf⟩
  · refine ⟨_, _, _, _, _, .done (run_bind_ok hrun _) R' hm hdone ?_⟩
    rintro i ⟨⟩
    exact hin
  · exact ⟨_, _, _, _, _, .outOfMemory (run_bind_error hrun _) R' hm hdone hf⟩

/-- An operation on live objects does at their addresses what the store does. -/
theorem perform (R : Represents st place live rs s.collector) (op : Op Nat) (hop : ∀ i ∈ op.refs, i ∈ live) :
    ∃ a st' place' live' rs',
      Performed st place live op s.collector ((op.map place).perform.run s) a st' place' live' rs' := by
  cases op with
  | allocInt v =>
    obtain ⟨place', live', rs', h⟩ := R.allocScalar (y := .int v) rfl
    exact performed_alloc (x := Mutator.allocInt v) rfl rfl h
  | allocBool v =>
    obtain ⟨place', live', rs', h⟩ := R.allocScalar (y := .bool v) rfl
    exact performed_alloc (x := Mutator.allocBool v) rfl rfl h
  | allocVector elements =>
    obtain ⟨place', live', rs', ⟨hle, h⟩ | ⟨hle, h⟩ | ⟨hgt, s', hrun, R', hm⟩⟩ := R.allocVector elements hop
    · exact performed_alloc (x := Mutator.allocVector (elements.map (Option.map place))) rfl
        (if_neg (Nat.not_lt.mpr hle)) (Or.inl h)
    · exact performed_alloc (x := Mutator.allocVector (elements.map (Option.map place)))
        (y := .vector elements) rfl (if_neg (Nat.not_lt.mpr hle)) (Or.inr h)
    · have hfull : st.perform (.allocVector elements) = .error (.stackFull st.capacity) := if_pos hgt
      exact ⟨_, _, _, _, _, .refused (run_bind_error hrun _) R' hm hfull⟩
  | vectorSet i k o =>
    have ho : ∀ j, o = some j → j ∈ live := by
      rintro j rfl
      exact hop j (List.mem_cons_of_mem _ (List.mem_singleton_self j))
    rcases R.vectorSet (hop i (List.mem_cons_self ..)) k ho with ⟨y, s', hy, hrun, _, R'⟩ | ⟨f, hf, hrun⟩
    · have hdone : st.perform (.vectorSet i k o) =
          .ok (none, { st with content := Function.update st.content i y }) := by
        simp only [Store.perform, hy]
        rfl
      exact ⟨_, _, _, _, _, .done (run_bind_ok hrun _) R' .refl hdone nofun⟩
    · have hrefused : st.perform (.vectorSet i k o) = .error f := by
        simp only [Store.perform, hf]
        rfl
      exact ⟨_, _, _, _, _, .refused (run_bind_error hrun _) R .refl hrefused⟩
  | rootPush i =>
    rcases R.rootPush (hop i (List.mem_singleton_self i)) with ⟨hlt, s', hrun, _, R'⟩ | ⟨heq, s', hrun, hc⟩
    · have hdone : st.perform (.rootPush i) = .ok (none, { st with stack := st.stack ++ [i] }) := if_pos hlt
      exact ⟨_, _, _, _, _, .done (run_bind_ok hrun _) R' .refl hdone nofun⟩
    · have hfull : st.perform (.rootPush i) = .error (.stackFull st.capacity) := if_neg (Nat.not_lt.mpr heq.ge)
      exact ⟨_, _, _, _, _, .refused (run_bind_error hrun _) (hc ▸ R) .refl hfull⟩
  | rootPop =>
    rcases R.rootPop with ⟨i, s', hlast, hrun, _, R'⟩ | ⟨hnone, hrun⟩
    · have hdone : st.perform .rootPop = .ok (some i, { st with stack := st.stack.dropLast }) := by
        simp only [Store.perform, hlast]
      refine ⟨_, _, _, _, _, .done (run_bind_ok hrun _) R' .refl hdone ?_⟩
      rintro j ⟨⟩
      exact R.rooted i (List.mem_of_getLast? hlast)
    · have hempty : st.perform .rootPop = .error .stackEmpty := by
        simp only [Store.perform, hnone]
      exact ⟨_, _, _, _, _, .refused (run_bind_error hrun _) R .refl hempty⟩
  | collect =>
    obtain ⟨place', rs', s', summary, hrun, hcy, R'⟩ := R.collectAll
    have hdone : st.perform .collect = .ok (none, st) := rfl
    exact ⟨_, _, _, _, _, .done (a := none) (Op.run_collect hrun) R' (fun h => absurd (hcy.symm.trans h) (Nat.succ_ne_self _)) hdone nofun⟩

end Represents

end Semispace

import Semispace.Proofs.Store.Operations

/-!
# Runs of disciplined programs

A disciplined program passes on only references that it got after the last pass: from an operation,
from the root stack or out of a slot. Its run is a run of a store (`Run.represents`), so the store
tells all that it can observe, and none of its operations meets anything but whole objects.
-/

namespace Semispace

/-! ## What a program holds -/

/-- What a program can get at from the references that it knows. -/
inductive Held (c : Collector) (known : Set Ref) : Ref → Prop
  | known {r : Ref} : r ∈ known → Held c known r
  | root {r : Ref} : r ∈ c.roots.toList → Held c known r
  | slot {v r : Ref} {k : Nat} : Held c known v → c.vectorGet v k = .ok (some r) → Held c known r

/-- The references known after an operation: what it answers and, unless there was a pass, all that
was held before. -/
def knownAfter (s : Session) (known : Set Ref) (out : EStateM.Result Error Session (Option Ref)) : Set Ref :=
  {r | answer out = .ok (some r)} ∪
    {r | (endState out).collector.cycles = s.collector.cycles ∧ Held s.collector known r}

/-- The runs of disciplined programs: the steps so far, the last one first, and the references known. -/
inductive Run (machine : Machine) (config : Config) : List (Session × Op Ref) → Session → Set Ref → Prop
  | start {j j' : Journal} {c : Collector} :
    (Collector.create machine config).run j = .ok c j' → Run machine config [] ⟨c, j'⟩ ∅
  | step {past : List (Session × Op Ref)} {s : Session} {known : Set Ref} (op : Op Ref) :
    Run machine config past s known → (∀ r ∈ op.refs, Held s.collector known r) →
    Run machine config ((s, op) :: past) (endState (op.perform.run s)) (knownAfter s known (op.perform.run s))

namespace Store

/-- What a program can get at from the identities that it knows. -/
inductive Held (st : Store) (ids : Set Nat) : Nat → Prop
  | known {i : Nat} : i ∈ ids → Held st ids i
  | root {i : Nat} : i ∈ st.stack → Held st ids i
  | slot {i j : Nat} : Held st ids i → some j ∈ (st.content i).slots → Held st ids j

theorem Reach.held {st : Store} {ids : Set Nat} {i : Nat} (h : st.Reach i) : st.Held ids i := by
  induction h with
  | root hi => exact .root hi
  | slot _ hj ih => exact .slot ih hj

theorem perform_capacity {st st' : Store} {op : Op Nat} {a : Option Nat} (h : st.perform op = .ok (a, st')) :
    st'.capacity = st.capacity := by
  cases op with
  | allocInt v => cases h; rfl
  | allocBool v => cases h; rfl
  | allocVector elements =>
    simp only [perform] at h
    split at h <;> cases h
    rfl
  | vectorSet r i value =>
    simp only [perform] at h
    cases hx : (st.content r).vectorSet r i value with
    | error f => rw [hx] at h; cases h
    | ok x => rw [hx] at h; cases h; rfl
  | rootPush r =>
    simp only [perform] at h
    split at h <;> cases h
    rfl
  | rootPop =>
    simp only [perform] at h
    split at h <;> cases h
    rfl
  | collect => cases h; rfl

end Store

theorem Agrees.capacity {space : Nat} {st st' : Store} {op : Op Nat} {place : Nat → Ref} {a : Option Nat}
    {x : Except Error (Option Ref)} (h : Agrees space st op place x a st') : st'.capacity = st.capacity := by
  cases h with
  | done h => exact Store.perform_capacity h
  | refused _ => rfl
  | outOfMemory _ _ => rfl

/-- The reference answered is the address of the identity answered. -/
theorem Agrees.answer_iff {space : Nat} {st st' : Store} {op : Op Nat} {place : Nat → Ref} {a : Option Nat}
    {x : Except Error (Option Ref)} (h : Agrees space st op place x a st') {r : Ref} :
    x = .ok (some r) ↔ ∃ i, a = some i ∧ place i = r := by
  cases h with
  | done _ => simp
  | refused _ => simp
  | outOfMemory _ _ => simp

/-! ## The run of the store -/

/-- A collector shows a store: at the addresses of the moment, the roots and all readings are those
of the store. -/
structure Image (st : Store) (ids : Set Nat) (place : Nat → Ref) (c : Collector) : Prop where
  injective : Set.InjOn place {i | st.Held ids i}
  roots : c.roots.toList = st.stack.map place
  capacity : c.roots.capacity = st.capacity
  tagOf : ∀ i, st.Held ids i → c.tagOf (place i) = .ok (st.content i).tag
  intValue : ∀ i, st.Held ids i → c.intValue (place i) = Refusal.image place ((st.content i).intValue i)
  boolValue : ∀ i, st.Held ids i → c.boolValue (place i) = Refusal.image place ((st.content i).boolValue i)
  vectorLength : ∀ i, st.Held ids i → c.vectorLength (place i) = Refusal.image place ((st.content i).vectorLength i)
  vectorGet : ∀ i, st.Held ids i → ∀ k,
    c.vectorGet (place i) k = Refusal.image place (((st.content i).vectorGet i k).map (Option.map place))
  value : ∀ i, st.Held ids i → c.value (place i) = .ok ((st.content i).map place).value

/-- The identities known after an operation. -/
def Store.knownAfter (st : Store) (ids : Set Nat) (a : Option Nat) (s s' : Session) : Set Nat :=
  {i | a = some i} ∪ {i | s'.collector.cycles = s.collector.cycles ∧ st.Held ids i}

/-- A run of a collector and a run of a store side by side: every operation is that of the store at the
addresses of the moment, its answer agrees, and the collector shows the store afterwards. Addresses
change in passes only. -/
inductive Follows (machine : Machine) (config : Config) :
    List (Session × Op Ref) → Session → Store → Set Nat → (Nat → Ref) → Prop
  | start {j j' : Journal} {c : Collector} {place : Nat → Ref} :
    (Collector.create machine config).run j = .ok c j' → Image (.empty config.rootCapacity) ∅ place c →
    Follows machine config [] ⟨c, j'⟩ (.empty config.rootCapacity) ∅ place
  | step {past : List (Session × Op Ref)} {s s' : Session} {st st' : Store} {ids : Set Nat} {place place' : Nat → Ref}
    {a : Option Nat} (op : Op Nat) :
    Follows machine config past s st ids place → (∀ i ∈ op.refs, st.Held ids i) →
    endState ((op.map place).perform.run s) = s' →
    Agrees s.collector.arena.spaceWords st op place' (answer ((op.map place).perform.run s)) a st' →
    (s'.collector.cycles = s.collector.cycles → Set.EqOn place' place {i | st.Held ids i}) →
    Image st' (st.knownAfter ids a s s') place' s'.collector →
    Follows machine config ((s, op.map place) :: past) s' st' (st.knownAfter ids a s s') place'

theorem Collector.Fresh.represents {config : Config} {c : Collector} (h : c.Fresh config) (place : Nat → Ref) :
    Represents (.empty config.rootCapacity) place ∅ [] c where
  wellFormed := h.wellFormed
  idle := h.phase
  tiled := ⟨h.top.symm, nofun⟩
  placed := by
    have hnone : {w | c.arena.Starts [] w} = ∅ := Set.eq_empty_of_forall_notMem fun w ⟨_, he, _⟩ => nomatch he
    rw [hnone]
    exact Set.bijOn_empty _
  holds := nofun
  bounded := nofun
  closed := nofun
  rooted := nofun
  roots := h.roots
  capacity := h.rootCapacity

namespace Represents

variable {st : Store} {place : Nat → Ref} {live ids : Set Nat} {rs : List (Nat × Header)} {c : Collector}
variable (R : Represents st place live rs c)
include R

theorem live_of_held (h : ids ⊆ live) {i : Nat} (hi : st.Held ids i) : i ∈ live := by
  induction hi with
  | known hi => exact h hi
  | root hi => exact R.rooted _ hi
  | slot _ hj ih => exact R.closed _ ih _ hj

/-- What a program holds in the heap is what it holds in the store. -/
theorem held_iff (h : ids ⊆ live) {r : Ref} : Held c (place '' ids) r ↔ ∃ i, st.Held ids i ∧ place i = r := by
  constructor
  · intro hr
    induction hr with
    | known hr =>
      obtain ⟨i, hi, rfl⟩ := hr
      exact ⟨i, .known hi, rfl⟩
    | root hr =>
      rw [R.roots] at hr
      obtain ⟨i, hi, rfl⟩ := List.mem_map.mp hr
      exact ⟨i, .root hi, rfl⟩
    | @slot v r k _ hget ih =>
      obtain ⟨i, hi, rfl⟩ := ih
      obtain ⟨j, hj, rfl⟩ := (R.vectorGet_eq_some_iff (R.live_of_held h hi)).mp hget
      exact ⟨j, .slot hi (List.mem_of_getElem? hj), rfl⟩
  · intro hex
    obtain ⟨i, hi, rfl⟩ := hex
    induction hi with
    | known hi => exact .known (Set.mem_image_of_mem _ hi)
    | root hi => exact .root (R.roots ▸ List.mem_map_of_mem hi)
    | @slot i j hi hj ih =>
      obtain ⟨k, hk⟩ := List.mem_iff_getElem?.mp hj
      exact .slot ih ((R.vectorGet_eq_some_iff (R.live_of_held h hi)).mpr ⟨j, hk, rfl⟩)

/-- An operation on what a program holds is one on identities, at their addresses. -/
theorem exists_op (h : ids ⊆ live) {op : Op Ref} (hop : ∀ r ∈ op.refs, Held c (place '' ids) r) :
    ∃ op' : Op Nat, op'.map place = op ∧ ∀ i ∈ op'.refs, st.Held ids i := by
  have hname : ∀ r ∈ op.refs, ∃ i, st.Held ids i ∧ place i = r := fun r hr => (R.held_iff h).mp (hop r hr)
  choose! name hheld hplace using hname
  refine ⟨op.map name, Op.map_map_eq hplace, fun i hi => ?_⟩
  rw [Op.refs_map] at hi
  obtain ⟨r, hr, rfl⟩ := List.mem_map.mp hi
  exact hheld r hr

theorem image (h : ids ⊆ live) : Image st ids place c where
  injective := R.place_injective.mono fun _ hi => R.live_of_held h hi
  roots := R.roots
  capacity := R.capacity
  tagOf _ hi := R.tagOf (R.live_of_held h hi)
  intValue _ hi := R.intValue (R.live_of_held h hi)
  boolValue _ hi := R.boolValue (R.live_of_held h hi)
  vectorLength _ hi := R.vectorLength (R.live_of_held h hi)
  vectorGet _ hi := R.vectorGet (R.live_of_held h hi)
  value _ hi := R.value (R.live_of_held h hi)

end Represents

/-- A run of a disciplined program is a run of a store, which the collector represents. -/
theorem Run.represents {machine : Machine} {config : Config} {past : List (Session × Op Ref)} {s : Session}
    {known : Set Ref} (h : Run machine config past s known) :
    ∃ st ids place live rs, Represents st place live rs s.collector ∧ ids ⊆ live ∧ known = place '' ids ∧
      st.capacity = config.rootCapacity ∧ Follows machine config past s st ids place := by
  induction h with
  | @start j j' c hc =>
    -- nothing is live, so any addresses will do
    have R := (Collector.create_fresh hc).represents fun _ => ⟨1, by decide⟩
    exact ⟨_, ∅, _, ∅, [], R, subset_rfl, (Set.image_empty _).symm, rfl, .start hc (R.image subset_rfl)⟩
  | @step past s known op _ hop ih =>
    obtain ⟨st, ids, place, live, rs, R, hids, rfl, hcap, hf⟩ := ih
    obtain ⟨op', rfl, hop'⟩ := R.exists_op hids hop
    obtain ⟨a, st', place', live', rs', R', hm, hagree, hans⟩ :=
      R.perform op' fun i hi => R.live_of_held hids (hop' i hi)
    have heq : (endState ((op'.map place).perform.run s)).collector.cycles = s.collector.cycles →
        Set.EqOn place' place {i | st.Held ids i} := fun hc i hi => (hm hc).2 (R.live_of_held hids hi)
    have hids' : st.knownAfter ids a s (endState ((op'.map place).perform.run s)) ⊆ live' := by
      intro i hi
      rcases hi with hi | ⟨hc, hi⟩
      · exact hans i hi
      · exact (hm hc).1 (R.live_of_held hids hi)
    refine ⟨st', _, place', live', rs', R', hids', ?_, hagree.capacity.trans hcap,
      .step op' hf hop' rfl hagree heq (R'.image hids')⟩
    ext r
    constructor
    · intro hr
      rcases hr with hr | ⟨hc, hr⟩
      · obtain ⟨i, hi, rfl⟩ := hagree.answer_iff.mp hr
        exact ⟨i, Or.inl hi, rfl⟩
      · obtain ⟨i, hi, rfl⟩ := (R.held_iff hids).mp hr
        exact ⟨i, Or.inr ⟨hc, hi⟩, heq hc hi⟩
    · intro hr
      obtain ⟨i, hi | ⟨hc, hi⟩, rfl⟩ := hr
      · exact Or.inl (hagree.answer_iff.mpr ⟨i, hi, rfl⟩)
      · exact Or.inr ⟨hc, (R.held_iff hids).mpr ⟨i, hi, (heq hc hi).symm⟩⟩

/-! ## A small run -/

/-- The integer 7 in a small collector. -/
def Ref.seven : Ref := (answer ((Op.allocInt 7).perform.run .small)).toOption.join.get (by decide +kernel)

def Session.seven : Session := endState ((Op.allocInt 7).perform.run .small)

/-- The integer, made a root and moved by a pass. -/
def Session.movedSeven : Session :=
  endState (Op.collect.perform.run (endState ((Op.rootPush .seven).perform.run .seven)))

theorem exists_run_seven : ∃ past known, Run .standard ⟨64, 4, false, false⟩ past .seven known ∧
    Held Session.seven.collector known .seven := by
  refine ⟨_, _, .step (.allocInt 7) (.start Session.small_created) nofun, .known (Or.inl ?_)⟩
  show answer ((Op.allocInt 7).perform.run .small) = .ok (some Ref.seven)
  decide +kernel

theorem exists_run_movedSeven : ∃ past known, Run .standard ⟨64, 4, false, false⟩ past .movedSeven known := by
  obtain ⟨past, known, hrun, hheld⟩ := exists_run_seven
  refine ⟨_, _, .step .collect (.step (.rootPush .seven) hrun fun r hr => ?_) nofun⟩
  exact List.mem_singleton.mp hr ▸ hheld

/-! ## What a program sees -/

/-- Every run of a disciplined program is a run of a store, which knows of no passes, and the program
sees the store at the addresses of the moment. -/
theorem Run.simulates_store {machine : Machine} {config : Config} {past : List (Session × Op Ref)} {s : Session}
    {known : Set Ref} (h : Run machine config past s known) :
    ∃ st ids place, Follows machine config past s st ids place ∧ known = place '' ids ∧
      Image st ids place s.collector ∧ (∀ i, st.Reach i → st.Held ids i) ∧
      s.collector.roots.capacity = config.rootCapacity ∧ st.stack.length ≤ config.rootCapacity ∧
      answer (Mutator.rootPop.run s) =
        (st.stack.getLast?.map fun i => .ok (place i)).getD (.error .rootStackEmpty) ∧
      ∀ i, st.Held ids i →
        answer ((Mutator.rootPush (place i)).run s) =
          if st.stack.length = config.rootCapacity then .error (.rootStackOverflow config.rootCapacity) else .ok () := by
  obtain ⟨st, ids, place, live, rs, R, hids, hknown, hcap, hf⟩ := h.represents
  refine ⟨st, ids, place, hf, hknown, R.image hids, fun i hi => hi.held, R.capacity.trans hcap, hcap ▸ R.stack_le, ?_, ?_⟩
  · rcases R.rootPop with ⟨i, s', hlast, hrun, _⟩ | ⟨hnone, hrun⟩
    · rw [hrun, hlast]
      rfl
    · rw [hrun, hnone]
      rfl
  · intro i hi
    rw [← hcap]
    rcases R.rootPush (R.live_of_held hids hi) with ⟨hlt, s', hrun, _⟩ | ⟨heq, s', hrun, _⟩
    · rw [hrun, if_neg (Nat.ne_of_lt hlt)]
      rfl
    · rw [hrun, if_pos heq]
      rfl

theorem simulates_store_movedSeven : ∃ past known st ids place,
    Run .standard ⟨64, 4, false, false⟩ past .movedSeven known ∧
    Follows .standard ⟨64, 4, false, false⟩ past .movedSeven st ids place ∧
    Image st ids place Session.movedSeven.collector ∧ Session.movedSeven.collector.cycles = 1 := by
  obtain ⟨past, known, hrun⟩ := exists_run_movedSeven
  obtain ⟨st, ids, place, hf, _, hi, _⟩ := hrun.simulates_store
  exact ⟨past, known, st, ids, place, hrun, hf, hi, by decide +kernel⟩

/-! ## What cannot happen -/

/-- The errors that tell a program of a limit or of a request that it should not have made. -/
inductive Error.Benign : Error → Prop
  | outOfMemory {requested available : Nat} : Benign (.outOfMemory requested available)
  | rootStackOverflow {capacity : Nat} : Benign (.rootStackOverflow capacity)
  | rootStackEmpty : Benign .rootStackEmpty
  | invalidArgument {fault : ArgumentFault} : Benign (.invalidArgument fault)

theorem Refusal.benign (f : Refusal Ref) : f.error.Benign := by
  cases f with
  | wrongTag expected r found => exact .invalidArgument
  | slotOutOfBounds index length => exact .invalidArgument
  | stackFull capacity => exact .rootStackOverflow
  | stackEmpty => exact .rootStackEmpty

theorem Refusal.benign_of_image {α : Type} {place : Nat → Ref} {x : Except (Refusal Nat) α} {e : Error}
    (h : Refusal.image place x = .error e) : e.Benign := by
  cases x with
  | ok a => cases h
  | error f => cases h; exact (f.map place).benign

theorem Agrees.benign {space : Nat} {st st' : Store} {op : Op Nat} {place : Nat → Ref} {a : Option Nat}
    {x : Except Error (Option Ref)} (h : Agrees space st op place x a st') {e : Error} (hx : x = .error e) : e.Benign := by
  cases h with
  | done _ => cases hx
  | @refused f _ => cases hx; exact (f.map place).benign
  | outOfMemory _ _ => cases hx; exact .outOfMemory

/-- In every state of a run of a disciplined program the heap is tiled by records that refer to
records only, so passes complete and no operation or reading finds anything wrong with it. -/
theorem Run.never_goes_wrong {machine : Machine} {config : Config} {past : List (Session × Op Ref)} {s : Session}
    {known : Set Ref} (h : Run machine config past s known) :
    let c := s.collector
    let a := c.arena
    c.phase = .idle ∧
    (∃ rs, a.Tiled rs c.cursor.top ∧ (∀ r ∈ c.roots.toList, a.Starts rs r.addr) ∧
      ∀ e ∈ rs, ∀ k < e.2.slotCount, a.slotAt ⟨a.active, e.1⟩ k ≠ 0 → a.Starts rs (a.slotAt ⟨a.active, e.1⟩ k)) ∧
    (∃ summary s', (Mutator.collect c.roots.top).run s = .ok summary s') ∧
    (∀ op : Op Ref, (∀ r ∈ op.refs, Held c known r) → ∀ e, answer (op.perform.run s) = .error e → e.Benign) ∧
    ∀ r, Held c known r →
      (∃ x, c.header r = .ok x) ∧ (∃ t, c.tagOf r = .ok t) ∧ (∃ v, c.value r = .ok v) ∧
      (∀ e, c.intValue r = .error e → e.Benign) ∧ (∀ e, c.boolValue r = .error e → e.Benign) ∧
      (∀ e, c.vectorLength r = .error e → e.Benign) ∧ (∀ k e, c.vectorGet r k = .error e → e.Benign) ∧
      ∃ o, a.locate r.addr = some ⟨a.active, o⟩ ∧ ∀ k, c.readWord r k =
        if c.cursor.top ≤ o + k then .error (.invalidReference r.addr) else .ok (a.word ⟨a.active, o + k⟩) := by
  intro c a
  obtain ⟨st, ids, place, live, rs, R, hids, rfl, _, _⟩ := h.represents
  refine ⟨R.idle, ⟨rs, R.tiled, ?roots, ?slots⟩, ?collect, ?perform, ?read⟩
  case roots =>
    intro r hr
    rw [R.roots] at hr
    obtain ⟨i, hi, rfl⟩ := List.mem_map.mp hr
    exact R.placed.mapsTo (R.rooted i hi)
  case slots =>
    intro e he k hk hz
    -- every record is a live object, and live objects refer to live objects
    obtain ⟨i, hi, hw⟩ := R.placed.surjOn ⟨e, he, rfl⟩
    have hw : (place i).addr = a.address ⟨a.active, e.1⟩ := hw
    have ho := R.tiled.objectAt R.top_le he
    obtain ⟨_, hc, hs⟩ := R.slot_iff hi (hw ▸ ho.located) ho.header
    have hk' : k < (st.content i).slots.length := hc ▸ hk
    have hslot := hs k hk'
    cases hj : (st.content i).slots[k] with
    | none =>
      rw [hj] at hslot
      exact absurd hslot hz
    | some j =>
      rw [hj] at hslot
      have hslot : a.slotAt ⟨a.active, e.1⟩ k = (place j).addr := hslot
      rw [hslot]
      exact R.placed.mapsTo (R.closed i hi j (hj ▸ List.getElem_mem hk'))
  case collect =>
    obtain ⟨_, _, s', summary, hrun, _⟩ := R.collectAll
    exact ⟨summary, s', hrun⟩
  case perform =>
    intro op hop e he
    obtain ⟨op', rfl, hop'⟩ := R.exists_op hids hop
    obtain ⟨_, _, _, _, _, _, _, hagree, _⟩ := R.perform op' fun i hi => R.live_of_held hids (hop' i hi)
    exact hagree.benign he
  case read =>
    intro r hr
    obtain ⟨i, hi, rfl⟩ := (R.held_iff hids).mp hr
    have hi := R.live_of_held hids hi
    refine ⟨⟨_, R.header hi⟩, ⟨_, R.tagOf hi⟩, ⟨_, R.value hi⟩, ?_, ?_, ?_, ?_, ?_⟩
    · intro e he
      exact Refusal.benign_of_image ((R.intValue hi).symm.trans he)
    · intro e he
      exact Refusal.benign_of_image ((R.boolValue hi).symm.trans he)
    · intro e he
      exact Refusal.benign_of_image ((R.vectorLength hi).symm.trans he)
    · intro k e he
      exact Refusal.benign_of_image ((R.vectorGet hi k).symm.trans he)
    · obtain ⟨e, he, hw, _, _, ho⟩ := R.record hi
      exact ⟨e.1, ho.located, fun k => R.readWord he hw k⟩

theorem never_goes_wrong_movedSeven : ∃ past known, Run .standard ⟨64, 4, false, false⟩ past .movedSeven known ∧
    Session.movedSeven.collector.phase = .idle ∧
    ∃ summary s', (Mutator.collect Session.movedSeven.collector.roots.top).run .movedSeven = .ok summary s' := by
  obtain ⟨past, known, hrun⟩ := exists_run_movedSeven
  obtain ⟨hidle, _, hcollect, _⟩ := hrun.never_goes_wrong
  exact ⟨past, known, hrun, hidle, hcollect⟩

/-- A raw word past the cursor is refused, although the reference is good. -/
theorem readWord_seven_refused : ∃ past known, Run .standard ⟨64, 4, false, false⟩ past .seven known ∧
    Held Session.seven.collector known .seven ∧
    Session.seven.collector.readWord .seven 2 = .error (.invalidReference Ref.seven.addr) ∧
    ¬(Error.invalidReference Ref.seven.addr).Benign := by
  obtain ⟨past, known, hrun, hheld⟩ := exists_run_seven
  exact ⟨past, known, hrun, hheld, by decide +kernel, nofun⟩

end Semispace

import Semispace.Proofs.Collector.Elements
import Semispace.Proofs.Relocation.Repeats
import Semispace.Proofs.Store.Phases

/-!
# Vectors built word by word

A program can allocate the words of a vector and write them one by one: the tag, the length, and for each
slot what then stands at a position of the root stack. When the elements are roots it ends with the heap
that it would have with a vector allocated at once, whether the allocation runs a pass, fails or does
neither (`assemble_agrees`).
-/

namespace Semispace

/-! ## One word of a run -/

theorem Arena.Stored.set {a b c : Arena} {loc : Location} {ws : List Word} {i : Nat} {w : Word} (h : a.Stored b loc ws)
    (h' : b.Stored c (loc.add i) [w]) (hi : i < ws.length) (hl : loc.offset + ws.length ≤ a.spaceWords) :
    a.Stored c loc (ws.set i w) where
  layout := h'.layout.trans h.layout
  active := h'.active.trans h.active
  inactiveOpen := h'.inactiveOpen.trans h.inactiveOpen
  inside := by
    intro j hj
    rw [List.length_set] at hj
    rw [List.getElem_set]
    split
    · next hij =>
      subst hij
      exact h'.inside 0 (by simp)
    · next hij =>
      have hlt : (loc.add j).offset < b.spaceWords := by
        rw [h.spaceWords]
        show loc.offset + j < a.spaceWords
        omega
      rw [h'.outside (loc.add j) hlt fun _ => ?_, h.inside j hj]
      show loc.offset + j < loc.offset + i ∨ loc.offset + i + 1 ≤ loc.offset + j
      omega
  outside := by
    intro loc' hl' ho
    rw [List.length_set] at ho
    rw [h'.outside loc' (by rw [h.spaceWords]; exact hl') fun e => ?_, h.outside loc' hl' ho]
    have := ho e
    show loc'.offset < loc.offset + i ∨ loc.offset + i + 1 ≤ loc'.offset
    omega

theorem Session.Cleared.usable {s m : Session} {n : Nat} {xs : List CycleSummary} (C : s.Cleared n xs m)
    (hp : s.collector.phase ≠ .poisoned) : m.collector.phase ≠ .poisoned := by
  cases C with
  | fits _ => exact hp
  | swept _ hrun =>
    obtain ⟨_, _, hs, _⟩ := Mutator.runCycle_ok hrun
    rw [hs.phase]
    decide

namespace Mutator

/-- Writes the slots of an object from the word `i` on, each as it then stands on the root stack. -/
def writeSlots (r : Ref) : Nat → List (Option Nat) → Mutator Unit
  | _, [] => pure ()
  | i, position :: positions => do
    let c ← collector
    writeWord r i (Ref.slotWord (position.bind c.roots.get?))
    writeSlots r (i + 1) positions

/-- Writes the words of a vector with the elements that stand at positions of the root stack. -/
def writeVector (r : Ref) (positions : List (Option Nat)) : Mutator Unit := do
  writeWord r 0 Tag.vector.word
  writeWord r 1 (UInt64.ofNat positions.length)
  writeSlots r headerWords positions

/-- Builds a vector from raw words. The elements are given by their positions on the root stack. -/
def assemble (positions : List (Option Nat)) : Mutator Ref := do
  let r ← allocate (Header.vectorWords positions.length)
  writeVector r positions
  return r

variable {s m : Session} {r : Ref} {ws : List Word} {i n : Nat} {xs : List CycleSummary}

theorem run_writeWord_placed (P : Placed m ws r s) (hw : m.collector.WellFormed) (hp : m.collector.phase ≠ .poisoned)
    (hi : i < ws.length) (w : Word) : ∃ t, (writeWord r i w).run s = .ok () t ∧ Placed m (ws.set i w) r t := by
  have x := P.extended
  have hfits : m.collector.cursor.top + ws.length ≤ m.collector.arena.spaceWords := hw ▸ x.fits
  have hlen : (ws.set i w).length = ws.length := List.length_set
  have hlocate := x.located hw P.address (List.ne_nil_of_length_pos (Nat.zero_lt_of_lt hi))
  have hloc : s.collector.wordLocation r i = .ok ⟨m.collector.arena.active, m.collector.cursor.top + i⟩ := by
    rw [Collector.wordLocation_located hlocate, if_neg (by rw [x.top]; omega), x.stored.active]
  obtain ⟨b, hb, hst⟩ := @Arena.write_ok s.collector.arena ⟨m.collector.arena.active, m.collector.cursor.top + i⟩ w
    (by rw [x.spaceWords]; show m.collector.cursor.top + i < _; omega)
    ((x.stored.isOpen _).trans m.collector.arena.isOpen_active)
  have hrun : (writeWord r i w).run s = .ok () { s with collector := { s.collector with arena := b } } := by
    unfold writeWord
    rw [run_ensureUsable_bind (x.phase ▸ hp), run_collector_bind, run_liftM_bind hloc, run_liftM_bind hb]
    rfl
  exact ⟨_, hrun, ⟨hlen.symm ▸ x.fits, x.stored.set hst hi hfits, hlen.symm ▸ x.top, x.capacity, x.roots, x.phase,
    x.cycles⟩, P.address, hlen.symm ▸ P.stats, P.journal⟩

theorem run_writeSlots_placed (hw : m.collector.WellFormed) (hp : m.collector.phase ≠ .poisoned) :
    ∀ {positions : List (Option Nat)} {i : Nat} {ws : List Word} {s : Session}, Placed m ws r s →
      i + positions.length = ws.length → ∃ t, (writeSlots r i positions).run s = .ok () t ∧
        Placed m (ws.take i ++ positions.map fun p => Ref.slotWord (p.bind m.collector.roots.get?)) r t
  | [], i, ws, s, P, hi => by
    rw [List.length_nil, Nat.add_zero] at hi
    refine ⟨s, rfl, ?_⟩
    rw [List.map_nil, List.append_nil, hi, List.take_length]
    exact P
  | p :: positions, i, ws, s, P, hi => by
    rw [List.length_cons] at hi
    obtain ⟨t, hrun, P'⟩ := run_writeWord_placed P hw hp (show i < ws.length by omega)
      (Ref.slotWord (p.bind m.collector.roots.get?))
    have hi' : i + 1 + positions.length = (ws.set i (Ref.slotWord (p.bind m.collector.roots.get?))).length := by
      rw [List.length_set]
      omega
    obtain ⟨u, hrest, P''⟩ := run_writeSlots_placed hw hp P' hi'
    -- what was written up to `i` and the word at `i` are what is written up to `i + 1`
    refine ⟨u, ?_, ?_⟩
    · unfold writeSlots
      rw [run_collector_bind, P.extended.roots, run_bind_ok hrun]
      exact hrest
    · rw [List.take_succ_eq_append_getElem (by rw [List.length_set]; omega), List.take_set_of_le (Nat.le_refl i),
        List.getElem_set_self, List.append_assoc] at P''
      exact P''

/-- New words become the words of a vector. -/
theorem run_writeVector_placed {positions : List (Option Nat)} (hw : m.collector.WellFormed)
    (hp : m.collector.phase ≠ .poisoned) (P : Placed m (List.replicate (Header.vectorWords positions.length) 0) r s) :
    ∃ t, (writeVector r positions).run s = .ok () t ∧
      Placed m (Content.vector (positions.map fun p => p.bind m.collector.roots.get?)).words r t := by
  have hwords : (Content.vector (positions.map fun p => p.bind m.collector.roots.get?)).words =
      Tag.vector.word :: UInt64.ofNat positions.length ::
        positions.map fun p => Ref.slotWord (p.bind m.collector.roots.get?) := by
    show Tag.vector.word :: UInt64.ofNat (List.map _ positions).length :: List.map _ (List.map _ positions) = _
    rw [List.length_map, List.map_map]
    rfl
  have hzero : List.replicate (Header.vectorWords positions.length) (0 : Word) =
      0 :: 0 :: List.replicate positions.length 0 := by
    rw [Header.vectorWords, headerWords, Nat.add_comm]
    rfl
  have hlen : headerWords + positions.length = (Tag.vector.word :: UInt64.ofNat positions.length ::
      List.replicate positions.length 0).length := by
    rw [List.length_cons, List.length_cons, List.length_replicate]
    unfold headerWords
    omega
  rw [hzero] at P
  obtain ⟨t₁, h₁, P₁⟩ := run_writeWord_placed (i := 0) P hw hp (by simp) Tag.vector.word
  obtain ⟨t₂, h₂, P₂⟩ := run_writeWord_placed (i := 1) P₁ hw hp (by simp) (UInt64.ofNat positions.length)
  obtain ⟨t₃, h₃, P₃⟩ := run_writeSlots_placed hw hp P₂ hlen
  refine ⟨t₃, ?_, hwords ▸ P₃⟩
  unfold writeVector
  rw [run_bind_ok h₁, run_bind_ok h₂]
  exact h₃

theorem obtains_assemble {positions : List (Option Nat)} (C : s.Cleared (Header.vectorWords positions.length) xs m)
    (hw : s.collector.WellFormed) (hp : s.collector.phase ≠ .poisoned) :
    Obtains m (Content.vector (positions.map fun p => p.bind m.collector.roots.get?)).words
      ((assemble positions).run s) := by
  have hsize : (Content.vector (positions.map fun p => p.bind m.collector.roots.get?)).words.length =
      (List.replicate (Header.vectorWords positions.length) (0 : Word)).length := by
    rw [Content.length_words, List.length_replicate]
    exact congrArg (headerWords + ·) (List.length_map _)
  have ha := obtains_allocate C hw hp (by unfold Header.vectorWords headerWords; omega)
  unfold assemble
  generalize hr : (allocate (Header.vectorWords positions.length)).run s = out at ha
  cases ha with
  | denied hf hc hj =>
    rw [run_bind_error hr]
    rw [← hsize] at hf ⊢
    exact .denied hf hc hj
  | @placed r t P =>
    obtain ⟨u, hu, P'⟩ := run_writeVector_placed (C.wellFormed hw) (C.usable hp) P
    rw [run_bind_ok hr, run_bind_ok hu]
    exact .placed P'

end Mutator

/-! ## The same heap -/

/-- The collectors differ in nothing but what they have logged. -/
structure Collector.SameHeap (c d : Collector) : Prop where
  layout : d.arena.layout = c.arena.layout
  active : d.arena.active = c.arena.active
  inactiveOpen : d.arena.inactiveOpen = c.arena.inactiveOpen
  word : ∀ loc : Location, loc.offset < c.arena.spaceWords → d.arena.word loc = c.arena.word loc
  top : d.cursor.top = c.cursor.top
  capacity : d.cursor.capacity = c.cursor.capacity
  roots : d.roots.toList = c.roots.toList
  stats : d.stats = c.stats
  phase : d.phase = c.phase
  cycles : d.cycles = c.cycles

namespace Collector.SameHeap

variable {c d c' d' : Collector} {m n s' t' : Session} {ws : List Word} {r r' : Ref}

theorem of_eq (harena : d.arena = c.arena) (hcursor : d.cursor = c.cursor) (hroots : d.roots.toList = c.roots.toList)
    (hstats : d.stats = c.stats) (hphase : d.phase = c.phase) (hcycles : d.cycles = c.cycles) : SameHeap c d :=
  ⟨by rw [harena], by rw [harena], by rw [harena], fun _ _ => by rw [harena], by rw [hcursor], by rw [hcursor], hroots,
    hstats, hphase, hcycles⟩

/-- After the same words as well. -/
theorem extended (h : SameHeap c d) (x : Extended c c' ws) (y : Extended d d' ws) (hs : d'.stats = c'.stats) :
    SameHeap c' d' where
  layout := y.stored.layout.trans (h.layout.trans x.stored.layout.symm)
  active := y.stored.active.trans (h.active.trans x.stored.active.symm)
  inactiveOpen := y.stored.inactiveOpen.trans (h.inactiveOpen.trans x.stored.inactiveOpen.symm)
  word := by
    intro loc hloc
    rw [x.spaceWords] at hloc
    have hspace : d.arena.spaceWords = c.arena.spaceWords := congrArg Layout.spaceWords h.layout
    -- the words are new in both or in neither, since both cursors stood at one offset of one half
    by_cases hin : loc.half = c.arena.active ∧ c.cursor.top ≤ loc.offset ∧ loc.offset < c.cursor.top + ws.length
    · obtain ⟨hhalf, hge, hlt⟩ := hin
      have hk : loc.offset - c.cursor.top < ws.length := by omega
      have hx := x.word_new hk
      have hy := y.word_new hk
      rw [x.stored.active, ← hhalf, Nat.add_sub_cancel' hge] at hx
      rw [y.stored.active, h.active, h.top, ← hhalf, Nat.add_sub_cancel' hge] at hy
      exact hy.trans hx.symm
    · have hout : loc.half = c.arena.active → loc.offset < c.cursor.top ∨ c.cursor.top + ws.length ≤ loc.offset := by
        intro hhalf
        rcases Nat.lt_or_ge loc.offset c.cursor.top with hlt | hge
        · exact Or.inl hlt
        · exact Or.inr (Nat.not_lt.mp fun hlt => hin ⟨hhalf, hge, hlt⟩)
      rw [x.stored.outside loc hloc hout, y.stored.outside loc (hspace ▸ hloc) (by rw [h.active, h.top]; exact hout)]
      exact h.word loc hloc
  top := by rw [x.top, y.top, h.top]
  capacity := by rw [x.capacity, y.capacity, h.capacity]
  roots := by rw [x.roots, y.roots, h.roots]
  stats := hs
  phase := by rw [x.phase, y.phase, h.phase]
  cycles := by rw [x.cycles, y.cycles, h.cycles]

theorem wrecked {rs : List Ref} {p : Pass} (x : Wrecked c rs p c') (y : Wrecked d rs p d') (hcursor : d.cursor = c.cursor)
    (hstats : d.stats = c.stats) (hcycles : d.cycles = c.cycles) : SameHeap c' d' :=
  .of_eq (y.arena.trans x.arena.symm) (by rw [x.cursor, y.cursor, hcursor]) (y.roots.trans x.roots.symm)
    (by rw [x.stats, y.stats, hstats]) (y.phase.trans x.phase.symm) (by rw [x.cycles, y.cycles, hcycles])

/-- New objects with the same words are made alike, or both denied. -/
theorem obtains {out out' : EStateM.Result Error Session Ref} (h : SameHeap m.collector n.collector)
    (ho : Obtains m ws out) (ho' : Obtains n ws out') :
    answer out' = answer out ∧ SameHeap (endState out).collector (endState out').collector := by
  have hfits : ∀ k, n.collector.cursor.fits k = m.collector.cursor.fits k := by
    intro k
    unfold Cursor.fits
    rw [h.top, h.capacity]
  cases ho with
  | placed P =>
    cases ho' with
    | placed P' =>
      refine ⟨congrArg Except.ok (Ref.eq_of_addr ?_), h.extended P.extended P'.extended ?_⟩
      · rw [P.address, P'.address, h.active, h.top]
        unfold Arena.address
        rw [h.layout]
      · rw [endState_ok, endState_ok, P.stats, P'.stats, h.stats]
    | denied hf _ _ =>
      rw [hfits] at hf
      exact absurd P.extended.fits (of_decide_eq_false hf)
  | denied hf hc _ =>
    cases ho' with
    | placed P' =>
      rw [← hfits] at hf
      exact absurd P'.extended.fits (of_decide_eq_false hf)
    | denied _ hc' _ =>
      refine ⟨?_, ?_⟩
      · unfold Cursor.remaining answer
        rw [h.top, h.capacity]
      · rw [endState_error, endState_error, hc, hc']
        exact h

end Collector.SameHeap

/-! ## Elements that are roots -/

/-- The elements that are references are on the root stack, each at its position. -/
def Collector.StandAt (c : Collector) (elements : List (Option Ref)) (positions : List (Option Nat)) : Prop :=
  positions.map (Option.map c.roots.get?) = elements.map (Option.map some)

namespace Collector.StandAt

variable {c d : Collector} {elements : List (Option Ref)} {positions : List (Option Nat)} {f : Word → Word}

theorem length_eq (h : c.StandAt elements positions) : positions.length = elements.length := by
  have hlen := congrArg List.length h
  rwa [List.length_map, List.length_map] at hlen

theorem read_eq (h : c.StandAt elements positions) : positions.map (fun p => p.bind c.roots.get?) = elements := by
  have hjoin := congrArg (List.map Option.join) h
  have hsome : (Option.join ∘ Option.map some : Option Ref → Option Ref) = id := funext fun o => by cases o <;> rfl
  have hbind : (Option.join ∘ Option.map c.roots.get?) = fun p => p.bind c.roots.get? :=
    funext fun p => by cases p <;> rfl
  rw [List.map_map, List.map_map, hsome, hbind, List.map_id] at hjoin
  exact hjoin

theorem exists_of_subset (h : elements.filterMap id ⊆ c.roots.toList) : ∃ positions, c.StandAt elements positions := by
  induction elements with
  | nil => exact ⟨[], rfl⟩
  | cons o elements ih =>
    cases o with
    | none =>
      obtain ⟨positions, hp⟩ := ih h
      exact ⟨none :: positions, congrArg (none :: ·) hp⟩
    | some r =>
      obtain ⟨hr, hrest⟩ := List.cons_subset.mp h
      obtain ⟨positions, hp⟩ := ih hrest
      obtain ⟨k, hk⟩ := List.getElem?_of_mem hr
      have hget : c.roots.get? k = some r := Array.getElem?_toList.symm.trans hk
      exact ⟨some k :: positions, congrArg₂ List.cons (congrArg some hget) hp⟩

/-- Read again after the roots were moved, the elements are where the roots are. -/
theorem read_moved (h : c.StandAt elements positions)
    (hmoved : d.roots.toList.map Ref.addr = (c.roots.toList.map Ref.addr).map f) {slots : List (Option Ref)}
    (hslots : slots.map (Option.map Ref.addr) = elements.map (Option.map fun r => f r.addr)) :
    positions.map (fun p => p.bind d.roots.get?) = slots := by
  have hget : ∀ k, (d.roots.get? k).map Ref.addr = (c.roots.get? k).map fun r => f r.addr := by
    intro k
    have hk := congrArg (·[k]?) hmoved
    rw [List.getElem?_map, List.getElem?_map, List.getElem?_map, Option.map_map] at hk
    unfold RootStack.get?
    rw [← Array.getElem?_toList, ← Array.getElem?_toList]
    exact hk
  apply List.map_injective_iff.mpr (Option.map_injective fun _ _ => Ref.eq_of_addr)
  rw [hslots, ← h.read_eq, List.map_map, List.map_map]
  refine List.map_congr_left fun p _ => ?_
  cases p with
  | none => rfl
  | some k => exact hget k

end Collector.StandAt

namespace Pushed

variable {s t m m' : Session} {refs : List Ref} {n : Nat} {xs xs' : List CycleSummary} {elements : List (Option Ref)}
  (x : Pushed s refs t) (hrefs : refs ⊆ s.collector.roots.toList)
include x hrefs

theorem relocateLive_eq : (t.collector.relocateLive t.collector.roots.top).2 =
    (s.collector.relocateLive s.collector.roots.top).2 :=
  (Collector.relocateLive_repeats x.arena x.cursor x.roots hrefs).1

theorem rootsAfter_take : (t.collector.rootsAfter t.collector.roots.top).take s.collector.roots.top =
    s.collector.rootsAfter s.collector.roots.top := by
  obtain ⟨_, refs', _, hrelocated⟩ := Collector.relocateLive_repeats x.arena x.cursor x.roots hrefs
  have hall : ∀ c : Collector, (c.relocateLive c.roots.top).1.length = c.roots.toList.length := by
    intro c
    rw [Collector.length_relocateLive, RootStack.bottom_top]
  unfold Collector.rootsAfter
  rw [hall, hall, List.drop_length, List.drop_length, List.append_nil, List.append_nil, hrelocated]
  exact List.take_left' (hall _)

theorem exists_cleared (C : s.Cleared n xs m) : ∃ xs' m', t.Cleared n xs' m' := by
  refine Session.Cleared.exists_of_completes fun hf => ?_
  rw [x.relocateLive_eq hrefs]
  cases C with
  | fits hf' =>
    rw [x.cursor, hf'] at hf
    cases hf
  | swept _ hrun =>
    obtain ⟨p, hp, _⟩ := Mutator.runCycle_ok hrun
    exact ⟨p, hp⟩

/-- The elements make no difference to the room that is made while they are on the root stack. -/
theorem cleared_sameHeap (C : s.Cleared n xs m) (C' : t.Cleared n xs' m') :
    m.collector.SameHeap (m'.truncated s.collector.roots.top).collector := by
  cases C with
  | fits hf =>
    cases C' with
    | fits _ =>
      refine .of_eq x.arena x.cursor ?_ x.stats x.phase x.cycles
      show (t.collector.roots.truncate s.collector.roots.top).toList = s.collector.roots.toList
      rw [RootStack.toList_truncate, x.roots]
      exact List.take_left' rfl
    | swept hf' _ =>
      rw [x.cursor, hf] at hf'
      cases hf'
  | swept hf hrun =>
    cases C' with
    | fits hf' =>
      rw [x.cursor, hf] at hf'
      cases hf'
    | swept _ hrun' =>
      obtain ⟨p, hp, hs, rfl⟩ := Mutator.runCycle_ok hrun
      obtain ⟨p', hp', hs', rfl⟩ := Mutator.runCycle_ok hrun'
      -- the pass is the same, so what it leaves is
      have hsame := ((x.relocateLive_eq hrefs).symm.trans hp').symm.trans hp
      cases hsame
      refine .of_eq (hs'.arena.trans hs.arena.symm) ?cursor ?roots ?stats (hs'.phase.trans hs.phase.symm) ?cycles
      case cursor =>
        show m'.collector.cursor = m.collector.cursor
        rw [hs.cursor, hs'.cursor]
        exact congrArg (Cursor.resetTo · p.cursor.top) x.cursor
      case roots =>
        show (m'.collector.roots.truncate s.collector.roots.top).toList = m.collector.roots.toList
        rw [RootStack.toList_truncate, hs.roots, hs'.roots]
        exact x.rootsAfter_take hrefs
      case stats =>
        show m'.collector.stats = m.collector.stats
        rw [Mutator.stats_of_runCycle hrun, Mutator.stats_of_runCycle hrun']
        show t.collector.stats.addTrigger.addPass _ t.collector.cursor.top _ _ =
          s.collector.stats.addTrigger.addPass _ s.collector.cursor.top _ _
        rw [x.stats, x.cursor]
      case cycles =>
        show m'.collector.cycles = m.collector.cycles
        rw [hs.cycles, hs'.cycles]
        exact congrArg (· + 1) x.cycles

/-- Nor to what is left when the pass for it fails. -/
theorem failed_sameHeap {e : Error} {p : Pass} (hp : s.collector.phase ≠ .poisoned)
    (hf : s.collector.cursor.fits (Header.vectorWords elements.length) = false)
    (hfail : (s.collector.relocateLive s.collector.roots.top).2 = .error e p) :
    ∃ s' t', (Mutator.allocate (Header.vectorWords elements.length)).run s = .error e s' ∧
      (Mutator.buildVector s.collector.roots.top elements).run t = .error e t' ∧
      s'.collector.SameHeap t'.collector := by
  have hf' : t.collector.cursor.fits (Header.vectorWords elements.length) = false := x.cursor ▸ hf
  obtain ⟨s', hs', W⟩ := (Mutator.passed_allocate hp hf).run_error hfail
  obtain ⟨t', ht', W'⟩ := (Mutator.passed_buildVector (x.usable hp) s.collector.roots.top hf').run_error
    ((x.relocateLive_eq hrefs).trans hfail)
  rw [x.rootsAfter_take hrefs] at W'
  exact ⟨s', t', hs', ht', .wrecked W W' x.cursor (congrArg Stats.addTrigger x.stats) x.cycles⟩

end Pushed

/-- Words written one by one make the vector that the elements would be given at once, and leave the heap that
it would leave: the same words, cursor, halves, roots and counters. -/
theorem assemble_agrees {s : Session} {elements : List (Option Ref)} (hw : s.collector.WellFormed)
    (hp : s.collector.phase ≠ .poisoned) (hwhole : s.collector.RootsWhole)
    (helements : elements.filterMap id ⊆ s.collector.roots.toList)
    (hroom : s.collector.roots.top + (elements.filterMap id).length ≤ s.collector.roots.capacity) :
    (∃ positions, s.collector.StandAt elements positions) ∧
    ∀ positions, s.collector.StandAt elements positions →
      answer ((Mutator.allocVector elements).run s) = answer ((Mutator.assemble positions).run s) ∧
      (endState ((Mutator.assemble positions).run s)).collector.SameHeap
        (endState ((Mutator.allocVector elements).run s)).collector := by
  refine ⟨Collector.StandAt.exists_of_subset helements, fun positions hpositions => ?_⟩
  have hlength := hpositions.length_eq
  rcases Mutator.run_allocVector_or hp elements with ⟨r, hr, e, he, _⟩ | ⟨_, ⟨hlt, _⟩ | ⟨t, x, hrun⟩⟩
  · obtain ⟨o, h, y, hend⟩ := hwhole r.addr (.root (helements hr))
    rw [Collector.checkObject_eq_ok_iff.mpr ⟨o, rfl, y, hend⟩] at he
    cases he
  · exact absurd hroom (Nat.not_le.mpr hlt)
  rw [hrun]
  rcases Session.Cleared.exists_or s (Header.vectorWords elements.length) with ⟨xs, m, C⟩ | ⟨hf, e, p, hfail⟩
  · obtain ⟨xs', m', C'⟩ := x.exists_cleared helements C
    have hsame := x.cleared_sameHeap helements C C'
    -- the elements are moved with the roots, so they are found at the positions where they stood
    obtain ⟨f, S, hrefs⟩ := x.spanned C' hw hwhole
    have hslots := Mutator.map_refill id hrefs
    rw [Option.map_id_fun, List.map_id_fun] at hslots
    have ho := Mutator.obtains_assemble (hlength.symm ▸ C) hw hp
    rw [hpositions.read_moved (hsame.roots ▸ S.rooted.rooted) hslots] at ho
    exact hsame.obtains ho (Mutator.obtains_buildVector C' (x.wellFormed hw) (x.usable hp) s.collector.roots.top)
  · obtain ⟨s', t', hs', ht', hsame⟩ := x.failed_sameHeap helements hp hf hfail
    have hassemble : (Mutator.assemble positions).run s = .error e s' := by
      unfold Mutator.assemble
      rw [hlength, run_bind_error hs']
    rw [hassemble, ht']
    exact ⟨rfl, hsame⟩

theorem assemble_agrees_packed : Session.packed.collector.WellFormed ∧ Session.packed.collector.phase ≠ .poisoned ∧
    Session.packed.collector.RootsWhole ∧
    Session.packed.collector.StandAt Session.packedElements [some 0, none, some 0] ∧
    (∃ v s' t', (Mutator.allocVector Session.packedElements).run .packed = .ok v s' ∧
      (Mutator.assemble [some 0, none, some 0]).run .packed = .ok v t' ∧ s'.collector.cycles = 1 ∧
      t'.collector.SameHeap s'.collector) ∧
    ∃ s' t', (Mutator.allocVector (List.replicate 27 none)).run .packed = .error (.outOfMemory 29 26) s' ∧
      (Mutator.assemble (List.replicate 27 none)).run .packed = .error (.outOfMemory 29 26) t' ∧
      s'.collector.cycles = 1 ∧ t'.collector.SameHeap s'.collector := by
  have hw := Session.packed_wellFormed
  have hp : Session.packed.collector.phase ≠ .poisoned := by decide +kernel
  have hwhole := Collector.rootsWhole Session.packed_normal Session.packed_starts
  have hstand : Session.packed.collector.StandAt Session.packedElements [some 0, none, some 0] := by
    unfold Collector.StandAt
    decide +kernel
  refine ⟨hw, hp, hwhole, hstand, ?passed, ?denied⟩
  case passed =>
    obtain ⟨hanswer, hsame⟩ :=
      (@assemble_agrees .packed Session.packedElements hw hp hwhole (by decide +kernel) (by decide +kernel)).2 _ hstand
    obtain ⟨v, s', hrun⟩ := @exists_of_isSome _ _ _ ((Mutator.allocVector Session.packedElements).run .packed)
      (by decide +kernel)
    have hone : (endState ((Mutator.allocVector Session.packedElements).run .packed)).collector.cycles = 1 := by
      decide +kernel
    rw [hrun] at hanswer hsame hone
    obtain ⟨t', hrun'⟩ := exists_of_answer_ok hanswer.symm
    rw [hrun'] at hsame
    exact ⟨v, s', t', hrun, hrun', hone, hsame⟩
  case denied =>
    obtain ⟨hanswer, hsame⟩ :=
      (@assemble_agrees .packed (List.replicate 27 none) hw hp hwhole (by decide +kernel) (by decide +kernel)).2
        (List.replicate 27 none) (by unfold Collector.StandAt; decide +kernel)
    obtain ⟨s', hrun⟩ := @exists_of_answer_error _ _ _ ((Mutator.allocVector (List.replicate 27 none)).run .packed)
      (.outOfMemory 29 26) (by decide +kernel)
    have hone : (endState ((Mutator.allocVector (List.replicate 27 none)).run .packed)).collector.cycles = 1 := by
      decide +kernel
    rw [hrun] at hanswer hsame hone
    obtain ⟨t', hrun'⟩ := exists_of_answer_error hanswer.symm
    rw [hrun'] at hsame
    exact ⟨s', t', hrun, hrun', hone, hsame⟩

end Semispace

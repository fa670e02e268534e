import Semispace.Proofs.Parcel.Allocation

/-!
# Demands on a parcelled collector

As long as a program passes on only what it was given after the last pass, its heap stays parcelled,
whatever sizes it asks for (`Stocked.perform`). A pass may fail, though, and then the collector is
poisoned.
-/

namespace Semispace

/-! ## How a demand ends -/

/-- The single words known of after a demand: what it answers if it asks for one, and, unless there was
a pass, those known of before. -/
def narrowAfter (s : Session) (narrow : Set Ref) (x : Demand) (out : EStateM.Result Error Session (Option Ref)) : Set Ref :=
  {r | x = .words 1 ∧ answer out = .ok (some r)} ∪ unlessPassed s.collector (endState out).collector narrow

/-- The collector is poisoned, or it is parcelled again and a parcel is answered. -/
def Served (narrow : Set Ref) (ps : Set Parcel) (s : Session) (x : Demand)
    (out : EStateM.Result Error Session (Option Ref)) : Prop :=
  (endState out).collector.phase = .poisoned ∨
  ∃ ps', Stocked (narrowAfter s narrow x out) ps' (endState out).collector ∧
    Carries ps s.collector ps' (endState out).collector ∧
    ∀ r, answer out = .ok (some r) → (endState out).collector.arena.Given ps' r.addr

/-- The session `t` has the parcels of `s` in the same places, and no pass was in between. -/
structure Stays (narrow : Set Ref) (ps : Set Parcel) (s t : Session) : Prop where
  stocked : Stocked narrow ps t.collector
  cycles : t.collector.cycles = s.collector.cycles
  layout : t.collector.arena.layout = s.collector.arena.layout
  active : t.collector.arena.active = s.collector.arena.active

section
variable {narrow : Set Ref} {ps : Set Parcel} {s t : Session} {x : Demand}

theorem Stays.of_eq (S : Stocked narrow ps s.collector) (h : t.collector = s.collector) : Stays narrow ps s t :=
  ⟨h ▸ S, by rw [h], by rw [h], by rw [h]⟩

theorem Stays.carries (h : Stays narrow ps s t) : Carries ps s.collector ps t.collector :=
  fun _ _ hw => hw.congr h.layout h.active subset_rfl

theorem Stays.stocked_still (h : Stays narrow ps s t) :
    Stocked (unlessPassed s.collector t.collector narrow) ps t.collector :=
  h.stocked.mono fun _ hr => ⟨h.cycles, hr⟩

theorem Stays.refused {e : Error} (h : Stays narrow ps s t) : Served narrow ps s x (.error e t) :=
  Or.inr ⟨ps, h.stocked_still.mono (Set.subset_union_right ..), h.carries, nofun⟩

/-- An operation that leaves the parcels is served when it answers with one or with nothing. -/
theorem Stays.served {α : Type} {y : Mutator α} {f : α → Option Ref} (h : Stays narrow ps s (endState (y.run s)))
    (ha : ∀ a r, answer (y.run s) = .ok a → f a = some r → s.collector.arena.Given ps r.addr) :
    Served narrow ps s x ((y >>= fun a => pure (f a)).run s) := by
  cases hrun : y.run s with
  | error e t =>
    rw [hrun] at h
    rw [run_bind_error hrun]
    exact h.refused
  | ok a t =>
    rw [hrun] at h ha
    rw [run_bind_ok hrun]
    refine Or.inr ⟨ps, h.stocked_still.mono (Set.subset_union_right ..), h.carries, fun r hr => ?_⟩
    exact (ha a r rfl (Except.ok.inj hr)).congr h.layout h.active subset_rfl

theorem Allocated.served {y : Mutator Ref} (h : Allocated narrow ps s (y.run s)) :
    Served narrow ps s x ((do return some (← y) : Mutator (Option Ref)).run s) := by
  generalize hrun : y.run s = out at h
  cases h with
  | @given r s' ps' S hm hg =>
    rw [run_bind_ok hrun]
    refine Or.inr ⟨ps', S.mono (Set.subset_union_right ..), hm, fun r' hr => ?_⟩
    obtain rfl := Option.some.inj (Except.ok.inj hr)
    exact hg
  | refused S hm =>
    rw [run_bind_error hrun]
    exact Or.inr ⟨_, S.mono (Set.subset_union_right ..), hm, nofun⟩
  | failed hp =>
    rw [run_bind_error hrun]
    exact Or.inl hp

end

/-! ## Operations -/

namespace Stocked

variable {narrow : Set Ref} {ps : Set Parcel} {s : Session} (S : Stocked narrow ps s.collector)
include S

theorem allocVector {elements : List (Option Ref)}
    (hg : ∀ r ∈ elements.filterMap id, s.collector.arena.Given ps r.addr) :
    Allocated narrow ps s ((Mutator.allocVector elements).run s) := by
  rcases Mutator.run_allocVector_or S.usable elements with ⟨_, _, e, _, hrun⟩ | ⟨ho, ⟨_, hrun⟩ | ⟨t, x, hrun⟩⟩
  · rw [hrun]
    have h := Stays.of_eq S (t := s) rfl
    exact .refused h.stocked_still h.carries
  · rw [hrun]
    have h := Stays.of_eq S (t := s) rfl
    exact .refused h.stocked_still h.carries
  · have hroots : ∀ r ∈ t.collector.roots.toList, s.collector.arena.Whole ps s.collector.cursor.top r.addr := by
      intro r hr
      rw [x.roots] at hr
      rcases List.mem_append.mp hr with hr | hr
      · exact S.rooted r hr
      · obtain ⟨found, hc⟩ := ho r hr
        exact S.whole (hg r hr) hc
    obtain ⟨roots, rfl⟩ : ∃ roots, t = { s with collector := { s.collector with roots } } := ⟨_, x.rest⟩
    have S₁ : Stocked narrow ps { s.collector with roots } := S.reroot rfl rfl rfl hroots
    have h := S₁.buildVector (s := ⟨{ s.collector with roots }, s.journal⟩) s.collector.roots.top elements
    rw [hrun]
    generalize (Mutator.buildVector s.collector.roots.top elements).run _ = out at h ⊢
    cases h with
    | given S' hm hg' => exact .given S' hm hg'
    | refused S' hm => exact .refused S' hm
    | failed hp => exact .failed hp

/-- A slot of a record that gets another reference to a parcel. -/
theorem setSlot {p : Parcel} {h : Header} {i : Nat} {w : Word} {b : Arena} (hp : p ∈ ps) (hh : p.header = some h)
    (hi : i < h.slotCount) (hw : w = 0 ∨ s.collector.arena.Whole ps s.collector.cursor.top w)
    (hst : s.collector.arena.Stored b ⟨s.collector.arena.active, p.offset + (headerWords + i)⟩ [w]) :
    Stays narrow ps s { s with collector := { s.collector with arena := b } } := by
  have htop := S.top_le
  have hj := Parcel.slot_lt hh hi
  have P : b.Parcelled ps s.collector.cursor.top := by
    refine S.parcelled.congr hst.layout hst.active (Nat.le_refl _) htop fun q hq j hjq => ?_
    have hend := S.parcelled.end_le q hq
    by_cases heq : q.offset + j = p.offset + (headerWords + i)
    · have hqp : p = q := (S.parcelled.apart p hp q hq).resolve_right (by omega)
      subst hqp
      have hword : b.word ⟨b.active, p.offset + (headerWords + i)⟩ = w := by
        rw [hst.active]
        exact hst.inside 0 Nat.zero_lt_one
      rw [heq, hword]
      exact Or.inr ⟨by omega, hw⟩
    · exact Or.inl (hst.word_of_ne (n := q.offset + j) (by omega) heq)
  exact ⟨S.reparcel P hst.layout hst.active (Nat.le_refl _) rfl rfl rfl, rfl, hst.layout, hst.active⟩

theorem vectorSet {r : Ref} (i : Nat) {value : Option Ref} (hg : s.collector.arena.Given ps r.addr)
    (hv : ∀ v, value = some v → s.collector.arena.Given ps v.addr) :
    Stays narrow ps s (endState ((Mutator.vectorSet r i value).run s)) := by
  cases hl : s.collector.slotLocation r i with
  | error e =>
    rw [Mutator.run_vectorSet_unlocated S.usable hl]
    exact .of_eq S rfl
  | ok loc =>
    obtain ⟨o, h, x, hend, hi, rfl⟩ := Collector.exists_of_slotLocation hl
    obtain ⟨p, hp, rfl, hh⟩ := S.slot hg x hend hi
    by_cases hc : ∀ v, value = some v → ∃ found, s.collector.checkObject v = .ok found
    · obtain ⟨b, _, hst, hrun⟩ := Mutator.run_vectorSet_ok S.usable hl hc
      rw [hrun]
      refine S.setSlot hp hh hi ?_ hst
      cases value with
      | none => exact Or.inl rfl
      | some v =>
        obtain ⟨_, hc⟩ := hc v rfl
        exact Or.inr (S.whole (hv v rfl) hc)
    · simp only [not_forall, not_exists] at hc
      obtain ⟨v, rfl, hc⟩ := hc
      cases he : s.collector.checkObject v with
      | error e =>
        rw [Mutator.run_vectorSet_error S.usable hl he]
        exact .of_eq S rfl
      | ok found => exact absurd he (hc found)

theorem rootPush {r : Ref} (hg : s.collector.arena.Given ps r.addr) :
    Stays narrow ps s (endState ((Mutator.rootPush r).run s)) := by
  cases hc : s.collector.checkObject r with
  | error e =>
    rw [Mutator.run_rootPush_error S.usable hc]
    exact .of_eq S rfl
  | ok found =>
    rw [Mutator.run_rootPush_ok S.usable hc]
    unfold Mutator.pushSlot
    rw [Mutator.run_collector_bind]
    cases hp : s.collector.roots.push r with
    | error e => exact .of_eq S rfl
    | ok roots =>
      refine ⟨S.reroot rfl rfl rfl fun r' hr' => ?_, rfl, rfl, rfl⟩
      have hr' : r' ∈ roots.toList := hr'
      rw [(RootStack.toList_push hp).1] at hr'
      rcases List.mem_append.mp hr' with h | h
      · exact S.rooted r' h
      · exact List.mem_singleton.mp h ▸ S.whole hg hc

theorem rootPop : Stays narrow ps s (endState (Mutator.rootPop.run s)) ∧
    ∀ r, answer (Mutator.rootPop.run s) = .ok r → s.collector.arena.Given ps r.addr := by
  unfold Mutator.rootPop
  rw [Mutator.run_ensureUsable_bind S.usable, Mutator.run_collector_bind]
  cases hp : s.collector.roots.pop with
  | error e => exact ⟨.of_eq S rfl, nofun⟩
  | ok popped =>
    obtain ⟨r, roots⟩ := popped
    have hl := (RootStack.toList_pop hp).1
    refine ⟨⟨S.reroot rfl rfl rfl fun r' hr' => ?_, rfl, rfl, rfl⟩, fun r' hr' => ?_⟩
    · exact S.rooted r' (hl ▸ List.mem_append_left _ hr')
    · have hr' : r = r' := Except.ok.inj hr'
      exact hr' ▸ (S.rooted r (hl ▸ List.mem_append_right _ (List.mem_singleton_self r))).given

theorem collect {x : Demand} : Served narrow ps s x (Op.collect.perform.run s) := by
  show Served narrow ps s x ((Mutator.collector >>= fun c => Mutator.collect c.roots.top >>= fun _ => pure none).run s)
  rw [Mutator.run_collector_bind]
  have hrun := Mutator.run_collect S.usable (Nat.le_refl s.collector.roots.top)
  cases hr : (s.collector.relocateLive s.collector.roots.top).2 with
  | error e p =>
    obtain ⟨s', h, hw⟩ := Mutator.run_runCycle_error .explicit hr
    rw [run_bind_error (hrun.trans h)]
    exact Or.inl hw.phase
  | ok u p =>
    obtain ⟨s', h, hs⟩ := Mutator.run_runCycle_ok .explicit hr
    obtain ⟨ps', S'⟩ := S.swept hr hs
    rw [run_bind_ok (hrun.trans h)]
    exact Or.inr ⟨ps', S' _, fun hc => absurd (hs.cycles.symm.trans hc) (Nat.succ_ne_self _), nofun⟩

/-! ## Bare words -/

theorem words (n : Nat) : Served narrow ps s (.words n) ((Demand.words n).perform.run s) := by
  show Served narrow ps s (.words n) ((Mutator.allocate n >>= fun r => pure (some r)).run s)
  by_cases hn : n = 0
  · subst hn
    have hrun : (Mutator.allocate 0).run s = .error (.invalidSize 0) s := by
      rw [Mutator.allocate_eq, Mutator.run_ensureUsable_bind S.usable, if_pos rfl]
      rfl
    rw [run_bind_error hrun]
    exact (Stays.of_eq S rfl).refused
  rcases Session.Cleared.exists_or s n with ⟨xs, m, C⟩ | ⟨hf, e, p, hr⟩
  · obtain ⟨ps', S', hm⟩ := S.cleared C
    have ho := Mutator.obtains_allocate C S.wellFormed S.usable hn
    generalize hrun : (Mutator.allocate n).run s = out at ho
    cases ho with
    | denied _ hc _ =>
      rw [run_bind_error hrun]
      exact Or.inr ⟨ps', (hc ▸ S').mono (Set.subset_union_right ..), hc ▸ hm, nofun⟩
    | @placed r s' P =>
      have x := P.extended
      have hzero : ∀ k < n, s'.collector.arena.word ⟨s'.collector.arena.active, m.collector.cursor.top + k⟩ = 0 := by
        intro k hk
        rw [x.word_new (k := k) (by rw [List.length_replicate]; exact hk), List.getElem_replicate]
      have hgive : ∀ header : Option Header,
          Stocked (narrowAfter s narrow (.words n) (.ok (some r) s')) (insert ⟨m.collector.cursor.top, header⟩ ps')
            s'.collector → Served narrow ps s (.words n) (.ok (some r) s') := by
        intro header S''
        refine Or.inr ⟨_, S'', hm.extended x (Set.subset_insert _ _), fun r' hr' => ?_⟩
        obtain rfl := Option.some.inj (Except.ok.inj hr')
        exact x.given P.address
      have hsub : unlessPassed s.collector m.collector narrow ⊆ narrowAfter s narrow (.words n) (.ok (some r) s') :=
        (unlessPassed_congr x.cycles).symm.subset.trans (Set.subset_union_right ..)
      rw [run_bind_ok hrun]
      by_cases h1 : n = 1
      · subst h1
        refine hgive none (S'.add x hsub rfl (Nat.le_refl 1) nofun
          (fun _ => ⟨hzero 0 Nat.one_pos, r, Or.inl ⟨rfl, rfl⟩, ?_⟩) nofun)
        rw [x.address]
        exact P.address
      · -- two zeros are the header of an integer
        have hle : headerWords ≤ (List.replicate n (0 : Word)).length := by
          rw [List.length_replicate]
          unfold headerWords
          omega
        refine hgive (some ⟨.int, 0⟩) (S'.add x hsub rfl hle (fun h hh => ?_) nofun fun h hh i hi => ?_)
        · obtain rfl := Option.some.inj hh
          exact congrArg₂ Header.decode (hzero 0 (by omega)) (hzero 1 (by omega))
        · obtain rfl := Option.some.inj hh
          exact absurd hi (Nat.not_lt_zero i)
  · obtain ⟨s', hrun, hw⟩ := (Mutator.passed_allocate S.usable hf).run_error hr
    rw [run_bind_error hrun]
    exact Or.inl hw.phase

/-- Whatever a program demands at parcels, its heap stays parcelled or its collector is poisoned. -/
theorem perform (x : Demand) (hx : ∀ r ∈ x.refs, s.collector.arena.Given ps r.addr) :
    Served narrow ps s x (x.perform.run s) := by
  cases x with
  | words n => exact S.words n
  | op x =>
    cases x with
    | allocInt v => exact (S.allocScalar (.int v) rfl).served
    | allocBool v => exact (S.allocScalar (.bool v) rfl).served
    | allocVector elements => exact (S.allocVector hx).served
    | vectorSet r i value =>
      refine (S.vectorSet i (hx r (List.mem_cons_self ..)) ?_).served fun _ _ _ h => nomatch h
      rintro v rfl
      exact hx v (List.mem_cons_of_mem _ (List.mem_singleton_self v))
    | rootPush r => exact (S.rootPush (hx r (List.mem_singleton_self r))).served fun _ _ _ h => nomatch h
    | rootPop =>
      obtain ⟨h, ha⟩ := S.rootPop
      refine h.served fun r r' hr he => ?_
      exact Option.some.inj he ▸ ha r hr
    | collect => exact S.collect

end Stocked

end Semispace

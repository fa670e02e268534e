import Semispace.Collector.Mutation
import Semispace.Proofs.Relocation.Complete

/-!
# Collections

A collection ends as its pass does. When the pass completes, the halves are exchanged, the roots are
the relocated ones and the collector is idle again (`Swept`); when it fails, the collector is
poisoned and the error is thrown on.
-/

namespace Semispace

/-! ## Reports -/

/-- The copy that a notice tells of, if it tells of one. -/
def Notice.copy? : Notice → Option Copy
  | .objectCopied tag words source target => some ⟨tag, words, source, target⟩
  | _ => none

namespace Journal

/-- The copies among the notices. -/
def copies (j : Journal) : List Copy := j.notices.toList.filterMap Notice.copy?

section
variable {α : Type} (f : Notice → Option α) (j : Journal)

theorem filterMap_report (n : Notice) :
    (j.report n).notices.toList.filterMap f = j.notices.toList.filterMap f ++ (f n).toList := by
  unfold report
  rw [Array.toList_push, List.filterMap_append]
  cases h : f n <;> simp [h]

theorem filterMap_reportAll (ns : List Notice) :
    (j.reportAll ns).notices.toList.filterMap f = j.notices.toList.filterMap f ++ ns.filterMap f := by
  show (j.notices ++ ns).toList.filterMap f = _
  rw [Array.toList_appendList, List.filterMap_append]

theorem filterMap_reportAll_none {ns : List Notice} (h : ∀ n ∈ ns, f n = none) :
    (j.reportAll ns).notices.toList.filterMap f = j.notices.toList.filterMap f := by
  rw [filterMap_reportAll, List.filterMap_eq_nil_iff.mpr h, List.append_nil]

end

theorem copies_report (j : Journal) (n : Notice) : (j.report n).copies = j.copies ++ n.copy?.toList :=
  j.filterMap_report Notice.copy? n

theorem copies_reportAll (j : Journal) (cs : List Copy) : (j.reportAll (cs.map Copy.notice)).copies = j.copies ++ cs := by
  have h : (cs.map Copy.notice).filterMap Notice.copy? = cs := by
    rw [List.filterMap_map]
    exact List.filterMap_some
  refine (j.filterMap_reportAll Notice.copy? _).trans ?_
  rw [h]
  rfl

theorem events_report (j : Journal) (n : Notice) : (j.report n).events = j.events ++ n.event?.toList :=
  j.filterMap_report Notice.event? n

theorem events_reportAll {ns : List Notice} (j : Journal) (h : ∀ n ∈ ns, n.event? = none) :
    (j.reportAll ns).events = j.events :=
  j.filterMap_reportAll_none Notice.event? h

end Journal

/-- Printing aside, a logger reports the event. -/
theorem Logger.notices_record (l : Logger) (j : Journal) (e : Event) :
    (l.record j e).notices = (j.report (.event e)).notices := by
  unfold record
  dsimp only
  split <;> rfl

theorem Logger.events_record (l : Logger) (j : Journal) (e : Event) : (l.record j e).events = j.events ++ [e] := by
  unfold Journal.events
  rw [l.notices_record]
  exact j.events_report _

theorem Logger.copies_record (l : Logger) (j : Journal) (e : Event) : (l.record j e).copies = j.copies := by
  unfold Journal.copies
  rw [l.notices_record]
  exact (j.copies_report _).trans (List.append_nil _)

namespace Mutator

variable {α β : Type}

/-! ## Steps -/

theorem run_collector_bind (f : Collector → Mutator β) (s : Session) :
    (collector >>= f).run s = (f s.collector).run s := rfl

theorem run_update_bind (g : Collector → Collector) (f : Unit → Mutator β) (s : Session) :
    (update g >>= f).run s = (f ()).run { s with collector := g s.collector } := rfl

theorem run_modify_bind (g : Session → Session) (f : PUnit → Mutator β) (s : Session) :
    (modify g >>= f).run s = (f ⟨⟩).run (g s) := rfl

theorem run_emit_bind (e : Event) (f : Unit → Mutator β) (s : Session) :
    (emit e >>= f).run s = (f ()).run ⟨{ s.collector with logger := s.collector.logger.keep e },
      s.collector.logger.record s.journal e⟩ := rfl

theorem run_observing (x : Mutator α) (s : Session) :
    (observing x).run s = .ok (answer (x.run s)) (endState (x.run s)) := by
  show (EStateM.tryCatch (x >>= fun a => pure (Except.ok a)) fun e => pure (Except.error e)) s = _
  simp only [EStateM.tryCatch, bind, EStateM.bind, EStateM.run]
  cases x s <;> rfl

theorem run_observing_bind (x : Mutator α) (f : Except Error α → Mutator β) (s : Session) :
    (observing x >>= f).run s = (f (answer (x.run s))).run (endState (x.run s)) :=
  run_bind_ok (run_observing x s) f

theorem run_ensureUsable_bind {s : Session} (h : s.collector.phase ≠ .poisoned) (f : Unit → Mutator β) :
    (ensureUsable >>= f).run s = (f ()).run s := by
  have hp : s.collector.isPoisoned = false := by simp [Collector.isPoisoned, h]
  refine run_bind_ok ?_ f
  unfold ensureUsable
  rw [run_collector_bind, hp]
  rfl

theorem run_ensureUsable_poisoned {s : Session} (h : s.collector.phase = .poisoned) (f : Unit → Mutator β) :
    (ensureUsable >>= f).run s = .error .poisoned s := by
  have hp : s.collector.isPoisoned = true := by simp [Collector.isPoisoned, h]
  refine run_bind_error ?_ f
  unfold ensureUsable
  rw [run_collector_bind, hp]
  rfl

end Mutator

/-! ## Passes of a collector -/

/-- The collector `c` after a completed pass `p` over the `live` lowest roots. -/
structure Exchanged (c : Collector) (live : Nat) (p : Pass) (c' : Collector) : Prop where
  arena : c'.arena = p.arena.swap
  cursor : c'.cursor = c.cursor.resetTo p.cursor.top
  roots : c'.roots.toList = (c.relocateLive live).1 ++ c.roots.toList.drop (c.relocateLive live).1.length
  rootCapacity : c'.roots.capacity = c.roots.capacity

/-- A session after a completed collection with the pass `p`. -/
structure Swept (s : Session) (live : Nat) (reason : Reason) (p : Pass) (s' : Session) : Prop
    extends Exchanged s.collector live p s'.collector where
  phase : s'.collector.phase = .idle
  cycles : s'.collector.cycles = s.collector.cycles + 1
  events : s'.journal.events = s.journal.events ++ [
    .cycleStart (s.collector.cycles + 1) reason.message live,
    .relocateStats p.copier.objectsCopied p.cursor.top p.table.size,
    .halvesSwapped p.arena.swap.active.name p.arena.swap.inactive.name,
    .cycleEnd (s.collector.cycles + 1) Pause.none.millis p.cursor.top (s.collector.usedWords - p.cursor.top),
    .heapStats s'.collector.usedWords s'.collector.arena.spaceWords s'.collector.utilization]
  copies : s'.journal.copies = s.journal.copies ++ p.copier.copies.toList

/-- The collector `c` after a pass that failed as `p`, with the roots `roots`. -/
structure Wrecked (c : Collector) (roots : List Ref) (p : Pass) (c' : Collector) : Prop where
  phase : c'.phase = .poisoned
  arena : c'.arena = p.arena
  cursor : c'.cursor = c.cursor
  cycles : c'.cycles = c.cycles
  stats : c'.stats = c.stats
  roots : c'.roots.toList = roots

/-- The root stack as a pass leaves it. -/
def Collector.rootsAfter (c : Collector) (live : Nat) : List Ref :=
  (c.relocateLive live).1 ++ c.roots.toList.drop (c.relocateLive live).1.length

/-- The session in which a pass runs: the collection has been reported to start. -/
def Session.collecting (s : Session) (live : Nat) (reason : Reason) : Session where
  collector := { s.collector with
    phase := .collecting
    logger := s.collector.logger.keep (.cycleStart (s.collector.cycles + 1) reason.message live) }
  journal := s.collector.logger.record s.journal (.cycleStart (s.collector.cycles + 1) reason.message live)

namespace Mutator

variable {s : Session} {live : Nat} {p : Pass}

theorem run_runPass_ok (h : (s.collector.relocateLive live).2 = .ok () p) :
    ∃ s', (runPass live).run s = .ok p.summary s' ∧ Exchanged s.collector live p s'.collector ∧
      s'.journal.events = s.journal.events ∧ s'.journal.copies = s.journal.copies ++ p.copier.copies.toList := by
  unfold runPass
  rw [run_collector_bind]
  dsimp only
  rw [run_update_bind, run_modify_bind, h]
  refine ⟨_, rfl, ⟨rfl, rfl, RootStack.toList_setBottom _ _ (s.collector.length_relocateLive_le live), rfl⟩, ?_, ?_⟩
  · rw [Journal.events_report]
    dsimp only
    rw [Journal.events_reportAll]
    · simp [Notice.event?]
    · intro n hn
      obtain ⟨c, _, rfl⟩ := List.mem_map.mp hn
      rfl
  · rw [Journal.copies_report]
    dsimp only
    rw [Journal.copies_reportAll]
    exact List.append_nil _

theorem run_runPass_error {e : Error} (h : (s.collector.relocateLive live).2 = .error e p) :
    ∃ s', (runPass live).run s = .error e s' ∧ s'.collector.roots.toList = s.collector.rootsAfter live ∧
      s'.collector = { s.collector with arena := p.arena, roots := s'.collector.roots } := by
  unfold runPass
  rw [run_collector_bind]
  dsimp only
  rw [run_update_bind, run_modify_bind, h]
  exact ⟨_, rfl, RootStack.toList_setBottom _ _ (s.collector.length_relocateLive_le live), rfl⟩

theorem run_runCycle_ok (reason : Reason) (h : (s.collector.relocateLive live).2 = .ok () p) :
    ∃ s', (runCycle live reason).run s = .ok ⟨s.collector.cycles + 1, reason, live, p.copier.objectsCopied,
        s.collector.usedWords, p.cursor.top, .none⟩ s' ∧ Swept s live reason p s' := by
  obtain ⟨s₁, hrun, hx, hj, hc⟩ := run_runPass_ok (s := s.collecting live reason) h
  unfold runCycle
  rw [run_collector_bind]
  dsimp only
  rw [run_update_bind, run_emit_bind]
  have ho : (observing (runPass live)).run (s.collecting live reason) = .ok (.ok p.summary) s₁ := by
    rw [run_observing, hrun]; rfl
  refine ⟨_, (run_bind_ok ho _).trans rfl, ⟨hx.arena, hx.cursor, hx.roots, hx.rootCapacity⟩, rfl, rfl, ?_, ?_⟩
  · dsimp only
    rw [Logger.events_record, Logger.events_record, Logger.events_record, Logger.events_record, hj]
    show (s.collector.logger.record s.journal _).events ++ _ ++ _ ++ _ ++ _ = _
    rw [Logger.events_record, hx.arena]
    simp only [List.append_assoc, List.singleton_append]
    rfl
  · dsimp only
    rw [Logger.copies_record, Logger.copies_record, Logger.copies_record, Logger.copies_record, hc]
    show (s.collector.logger.record s.journal _).copies ++ _ = _
    rw [Logger.copies_record]

theorem run_runCycle_error {e : Error} (reason : Reason) (h : (s.collector.relocateLive live).2 = .error e p) :
    ∃ s', (runCycle live reason).run s = .error e s' ∧
      Wrecked s.collector (s.collector.rootsAfter live) p s'.collector := by
  obtain ⟨s₁, hrun, hroots, hx⟩ := run_runPass_error (s := s.collecting live reason) h
  unfold runCycle
  rw [run_collector_bind]
  dsimp only
  rw [run_update_bind, run_emit_bind]
  have ho : (observing (runPass live)).run (s.collecting live reason) = .ok (.error e) s₁ := by
    rw [run_observing, hrun]; rfl
  refine ⟨_, (run_bind_ok ho _).trans rfl, rfl, ?_, ?_, ?_, ?_, hroots⟩
  · exact (congrArg Collector.arena hx :)
  · exact (congrArg Collector.cursor hx :)
  · exact (congrArg Collector.cycles hx :)
  · exact (congrArg Collector.stats hx :)

/-- A cycle that answers has completed its pass. -/
theorem runCycle_ok {s s' : Session} {reason : Reason} {summary : CycleSummary}
    (h : (runCycle live reason).run s = .ok summary s') :
    ∃ p, (s.collector.relocateLive live).2 = .ok () p ∧ Swept s live reason p s' ∧
      summary = ⟨s.collector.cycles + 1, reason, live, p.copier.objectsCopied, s.collector.usedWords, p.cursor.top,
        .none⟩ := by
  cases hr : (s.collector.relocateLive live).2 with
  | error e p =>
    obtain ⟨s'', he, _⟩ := run_runCycle_error reason hr
    rw [he] at h
    cases h
  | ok u p =>
    obtain ⟨s'', ho, hs⟩ := run_runCycle_ok reason hr
    rw [ho] at h
    cases h
    exact ⟨p, rfl, hs, rfl⟩

/-- A collection that answers has completed its pass. -/
theorem collect_ok {s s' : Session} {n : Nat} {summary : CycleSummary} (h : (collect n).run s = .ok summary s') :
    n ≤ s.collector.roots.top ∧ ∃ p, (s.collector.relocateLive n).2 = .ok () p ∧ Swept s n .explicit p s' ∧
      summary = ⟨s.collector.cycles + 1, .explicit, n, p.copier.objectsCopied, s.collector.usedWords, p.cursor.top,
        .none⟩ := by
  unfold collect at h
  by_cases hp : s.collector.phase = .poisoned
  · rw [run_ensureUsable_poisoned hp] at h
    cases h
  rw [run_ensureUsable_bind hp, run_collector_bind] at h
  dsimp only at h
  by_cases hn : s.collector.roots.top < n
  · rw [if_pos hn] at h
    cases h
  rw [if_neg hn] at h
  exact ⟨Nat.not_lt.mp hn, runCycle_ok h⟩

end Mutator

/-! ## What a completed collection leaves -/

/-- The cursor is one over the active half. No operation changes that (`Reachable.wellFormed`). -/
def Collector.WellFormed (c : Collector) : Prop := c.cursor.capacity = c.arena.spaceWords

/-- The heap after a completed pass is the one described by `Copied`, made in breadth-first order. -/
theorem Swept.copied_in_order {s s' : Session} {live : Nat} {reason : Reason} {p : Pass} (hw : s.collector.WellFormed)
    (h : (s.collector.relocateLive live).2 = .ok () p) (x : Swept s live reason p s') :
    s'.collector.WellFormed ∧ s'.collector.cursor.top = p.cursor.top ∧
      ∃ ms : List Moved,
        Pass.Invariant s.collector.arena s.collector.cursor.top (s.collector.roots.bottom live) ms p.cursor.top p ∧
        (∀ r ∈ s.collector.roots.bottom live, ∃ m ∈ ms, m.old = r.addr) ∧
        s.collector.arena.MeetsAll (s.collector.roots.bottom live) (ms.map Moved.old) ∧
        Copied s.collector.arena s'.collector.arena s.collector.cursor.top s'.collector.cursor.top
          (s.collector.roots.bottom live) (newAddress s.collector.arena ms) (ms.map Moved.block) ∧
        s'.collector.roots.toList.map Ref.addr =
          (s.collector.roots.bottom live).map (fun r => newAddress s.collector.arena ms r.addr) ++
            (s.collector.roots.toList.drop (s.collector.relocateLive live).1.length).map Ref.addr := by
  obtain ⟨ms, I, hr, hmet, hroots⟩ := Collector.relocateLive_ok h
  have htop : s'.collector.cursor.top = p.cursor.top := by
    rw [x.cursor]
    exact Nat.min_eq_left (hw.symm ▸ I.top_le)
  have hspace : s'.collector.arena.spaceWords = s.collector.arena.spaceWords := by
    rw [x.arena]
    exact I.spaceWords
  refine ⟨?_, htop, ms, I, hr, hmet, ?_, ?_⟩
  · unfold Collector.WellFormed
    rw [hspace, x.cursor]
    exact hw
  · rw [x.arena, htop]
    exact I.copied hr
  · rw [x.roots, List.map_append, hroots]

theorem Swept.copied {s s' : Session} {live : Nat} {reason : Reason} {p : Pass} (hw : s.collector.WellFormed)
    (h : (s.collector.relocateLive live).2 = .ok () p) (x : Swept s live reason p s') :
    s'.collector.WellFormed ∧ s'.collector.cursor.top = p.cursor.top ∧
      ∃ ms : List Moved,
        Pass.Invariant s.collector.arena s.collector.cursor.top (s.collector.roots.bottom live) ms p.cursor.top p ∧
        (∀ r ∈ s.collector.roots.bottom live, ∃ m ∈ ms, m.old = r.addr) ∧
        Copied s.collector.arena s'.collector.arena s.collector.cursor.top s'.collector.cursor.top
          (s.collector.roots.bottom live) (newAddress s.collector.arena ms) (ms.map Moved.block) ∧
        s'.collector.roots.toList.map Ref.addr =
          (s.collector.roots.bottom live).map (fun r => newAddress s.collector.arena ms r.addr) ++
            (s.collector.roots.toList.drop (s.collector.relocateLive live).1.length).map Ref.addr := by
  obtain ⟨hw', htop, ms, I, hr, _, hc, hroots⟩ := x.copied_in_order hw h
  exact ⟨hw', htop, ms, I, hr, hc, hroots⟩

/-- When all roots are live, all of them are forwarded. -/
theorem Swept.copied_all {s s' : Session} {reason : Reason} {p : Pass} (hw : s.collector.WellFormed)
    (h : (s.collector.relocateLive s.collector.roots.top).2 = .ok () p)
    (x : Swept s s.collector.roots.top reason p s') :
    s'.collector.WellFormed ∧ s'.collector.cursor.top = p.cursor.top ∧
      ∃ f rs, Copied s.collector.arena s'.collector.arena s.collector.cursor.top s'.collector.cursor.top
          s.collector.roots.toList f rs ∧
        s'.collector.roots.toList.map Ref.addr = s.collector.roots.toList.map fun r => f r.addr := by
  obtain ⟨hw', htop, ms, _, _, C, hroots⟩ := x.copied hw h
  have hlen : (s.collector.relocateLive s.collector.roots.top).1.length = s.collector.roots.toList.length := by
    rw [Collector.length_relocateLive, RootStack.bottom_top]
  rw [hlen, List.drop_length, List.map_nil, List.append_nil] at hroots
  rw [RootStack.bottom_top] at C hroots
  exact ⟨hw', htop, _, _, C, hroots⟩

/-- A completed collection leaves an isomorphic copy of what the `n` lowest roots reach, and nothing
else: a bijection takes the reached addresses to the records of the new active half, keeps headers,
and commutes with the slots and the roots. The counters tell how many objects and words that are. -/
theorem collect_isomorphic {s s' : Session} {n : Nat} {summary : CycleSummary} (hw : s.collector.WellFormed)
    (h : (Mutator.collect n).run s = .ok summary s') :
    let a := s.collector.arena
    let b := s'.collector.arena
    let live := s.collector.roots.bottom n
    ∃ (f : Word → Word) (rs : List (Nat × Header)) (ws : List Word),
      b.active = a.inactive ∧ b.Tiled rs s'.collector.cursor.top ∧
      Set.BijOn f {w | a.Reach live w} {w | b.Starts rs w} ∧
      s'.collector.roots.toList.map Ref.addr =
        live.map (fun r => f r.addr) ++ (s.collector.roots.toList.drop n).map Ref.addr ∧
      (∀ w, a.Reach live w → ∃ o o' hd, a.ObjectAt s.collector.cursor.top w o hd ∧ (o', hd) ∈ rs ∧
        f w = b.address ⟨b.active, o'⟩ ∧
        b.word ⟨b.active, o'⟩ = a.word ⟨a.active, o⟩ ∧ b.word ⟨b.active, o' + 1⟩ = a.word ⟨a.active, o + 1⟩ ∧
        ∀ i < hd.slotCount,
          (b.slotAt ⟨b.active, o'⟩ i = 0 ↔ a.slotAt ⟨a.active, o⟩ i = 0) ∧
          (a.slotAt ⟨a.active, o⟩ i ≠ 0 → b.slotAt ⟨b.active, o'⟩ i = f (a.slotAt ⟨a.active, o⟩ i))) ∧
      ws.Nodup ∧ (∀ w, w ∈ ws ↔ a.Reach live w) ∧
      summary.objectsCopied = ws.length ∧ summary.wordsAfter = (ws.map a.sizeAt).sum ∧
      s'.collector.cursor.top = (ws.map a.sizeAt).sum ∧
      ∃ before after, s'.journal.events = s.journal.events ++
        before :: .relocateStats ws.length (ws.map a.sizeAt).sum ws.length :: after := by
  intro a b live
  obtain ⟨hn, p, hp, hs, rfl⟩ := Mutator.collect_ok h
  obtain ⟨_, htop, ms, I, hr, hc, hroots⟩ := hs.copied hw hp
  have hlen : (s.collector.relocateLive n).1.length = n := by
    rw [Collector.length_relocateLive]
    unfold RootStack.bottom
    rw [List.length_take]
    exact Nat.min_eq_left hn
  have hsum : p.cursor.top = ((ms.map Moved.old).map a.sizeAt).sum := I.sum_sizes.symm
  have hcount : p.copier.objectsCopied = (ms.map Moved.old).length := I.copies.trans (List.length_map ..).symm
  have hentries : p.table.size = (ms.map Moved.old).length := by
    have := congrArg List.length I.table
    rw [List.length_map] at this ⊢
    exact this
  have hev := hs.events
  rw [hcount, hentries, hsum] at hev
  refine ⟨newAddress a ms, ms.map Moved.block, ms.map Moved.old, hc.active, hc.tiled, hc.bijective, ?_, ?_, I.nodup,
    ?_, hcount, hsum, htop.trans hsum, _, _, hev⟩
  · rw [hroots, hlen]
  · intro w hw
    obtain ⟨o, o', hd, x, hm, hf, hhead, hslot⟩ := hc.object w hw
    refine ⟨o, o', hd, x, hm, hf, hhead 0 (by decide), hhead 1 (by decide), fun i hi => ⟨?_, fun _ => hslot i hi⟩⟩
    rw [hslot i hi]
    refine ⟨fun h0 => ?_, fun h0 => by rw [h0]; exact hc.zero⟩
    exact Classical.byContradiction fun hz => hc.ne_zero (.slot hw x.located x.header hi hz) h0
  · intro w
    rw [List.mem_map]
    exact (I.reach_iff hr).symm

/-- A collector of 64 words and four roots, just started. -/
def Session.small : Session :=
  let r := (Collector.create .standard ⟨64, 4, false, false⟩).run .empty
  ⟨(answer r).toOption.get (by decide +kernel), endState r⟩

theorem Session.small_created :
    (Collector.create .standard ⟨64, 4, false, false⟩).run .empty = .ok Session.small.collector Session.small.journal :=
  eq_ok_get (by decide +kernel)

/-- Makes a vector that refers to itself and to an integer the only root. -/
def Mutator.loop : Mutator Unit := do
  let v ← allocVector [none, none]
  let i ← allocInt 7
  vectorSet v 0 (some v)
  vectorSet v 1 (some i)
  rootPush v

def Session.looped : Session := endState (Mutator.loop.run .small)

theorem collect_isomorphic_looped : ∃ summary s', (Mutator.collect 1).run .looped = .ok summary s' ∧
    Session.looped.collector.WellFormed ∧ summary.objectsCopied = 2 ∧
    ∃ (f : Word → Word) (rs : List (Nat × Header)), s'.collector.arena.Tiled rs s'.collector.cursor.top ∧
      Set.BijOn f {w | Session.looped.collector.arena.Reach (Session.looped.collector.roots.bottom 1) w}
        {w | s'.collector.arena.Starts rs w} := by
  have hw : Session.looped.collector.WellFormed := by unfold Collector.WellFormed; decide +kernel
  obtain ⟨summary, s', h⟩ := exists_of_isSome (r := (Mutator.collect 1).run .looped) (by decide +kernel)
  have hcount : (answer ((Mutator.collect 1).run .looped)).toOption.map CycleSummary.objectsCopied = some 2 := by
    decide +kernel
  obtain ⟨f, rs, _, _, ht, hb, _⟩ := collect_isomorphic hw h
  refine ⟨summary, s', h, hw, ?_, f, rs, ht, hb⟩
  rw [h] at hcount
  exact Option.some.inj hcount

end Semispace

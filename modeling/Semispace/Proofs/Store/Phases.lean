import Semispace.Proofs.Collector.Objects
import Semispace.Proofs.Store.Operations

/-!
# Operations and their passes

An operation runs its pass, if it runs one, before all else (`Op.Sweeps`). After that it stores a new
object or is denied it, or it changes slots and roots only (`Op.Settles`). In a represented store every
pass completes and never leaves more words in use than it found (`Represents.sweeps`).
-/

namespace Semispace

namespace Op

/-- The operation makes an object. -/
def allocates {ρ : Type} : Op ρ → Bool
  | allocInt _ => true
  | allocBool _ => true
  | allocVector _ => true
  | _ => false

/-- The passes that an operation runs in `s`, one at most, and the session in which it goes on. -/
inductive Sweeps (s : Session) : Op Ref → List CycleSummary → Session → Prop
  | allocInt {v : Int64} {xs : List CycleSummary} {m : Session} :
      s.Cleared headerWords xs m → Sweeps s (.allocInt v) xs m
  | allocBool {v : Bool} {xs : List CycleSummary} {m : Session} :
      s.Cleared headerWords xs m → Sweeps s (.allocBool v) xs m
  | allocVector {elements : List (Option Ref)} {t m : Session} {xs : List CycleSummary} : Rooted s elements t →
      t.Cleared (Header.vectorWords elements.length) xs m →
      Sweeps s (.allocVector elements) xs (m.truncated s.collector.roots.top)
  | refused {elements : List (Option Ref)} : (∀ t, ¬ Rooted s elements t) → Sweeps s (.allocVector elements) [] s
  | vectorSet {r : Ref} {i : Nat} {value : Option Ref} : Sweeps s (.vectorSet r i value) [] s
  | rootPush {r : Ref} : Sweeps s (.rootPush r) [] s
  | rootPop : Sweeps s .rootPop [] s
  | collect {x : CycleSummary} {m : Session} : (Mutator.collect s.collector.roots.top).run s = .ok x m →
      Sweeps s .collect [x] m

end Op

/-- What only passes and new objects change. -/
def Session.books (s : Session) : Cursor × Stats × Nat × List Copy :=
  (s.collector.cursor, s.collector.stats, s.collector.cycles, s.journal.copies)

/-- How an operation ends that goes on in `m` after its passes. -/
inductive Op.Settles (m : Session) : Op Ref → EStateM.Result Error Session (Option Ref) → Prop
  | placed {op : Op Ref} {y : Content Ref} {r : Ref} {s' : Session} : op.allocates = true → Placed m y.words r s' →
      Settles m op (.ok (some r) s')
  | denied {op : Op Ref} {e : Error} {s' : Session} : op.allocates = true → s'.collector = m.collector →
      s'.journal.copies = m.journal.copies → Settles m op (.error e s')
  | other {op : Op Ref} {out : EStateM.Result Error Session (Option Ref)} : op.allocates = false →
      (endState out).books = m.books → Settles m op out

namespace Op

variable {s m : Session} {op : Op Ref} {xs : List CycleSummary}

theorem settles_of_obtains {x : Mutator Ref} {y : Content Ref} (hx : op.perform = (do return some (← x)))
    (ha : op.allocates = true) (h : Obtains m y.words (x.run s)) : op.Settles m (op.perform.run s) := by
  rw [hx]
  generalize hr : x.run s = out at h
  cases h with
  | placed P =>
    rw [run_bind_ok hr]
    exact .placed ha P
  | denied _ hc hj =>
    rw [run_bind_error hr]
    exact .denied ha hc hj

/-- What keeps the books keeps them when it answers, too. -/
theorem books_discard {α : Type} {x : Mutator α} {a : α → Option Ref} (h : Keeps Session.books x) (s : Session) :
    (endState ((x >>= fun b => (pure (a b) : Mutator (Option Ref))).run s)).books = s.books :=
  (h.bind fun _ => .pure _) s

theorem Sweeps.settles (h : op.Sweeps s xs m) (hw : s.collector.WellFormed) (hp : s.collector.phase ≠ .poisoned) :
    op.Settles m (op.perform.run s) := by
  cases h with
  | @allocInt v _ _ C =>
    exact settles_of_obtains (x := Mutator.allocInt v) (y := .int v) rfl rfl
      (Mutator.obtains_allocScalar C hw hp .int v.toUInt64)
  | @allocBool v _ _ C =>
    exact settles_of_obtains (x := Mutator.allocBool v) (y := .bool v) rfl rfl
      (Mutator.obtains_allocScalar C hw hp .bool (if v then 1 else 0))
  | @allocVector elements t m xs x C =>
    have ho := Mutator.obtains_buildVector C (x.wellFormed hw) (x.usable hp) s.collector.roots.top
    rw [← Mutator.run_allocVector hp x] at ho
    exact settles_of_obtains (x := Mutator.allocVector elements) rfl rfl ho
  | @refused elements hn =>
    show Settles s _ ((Mutator.allocVector elements >>= fun r => pure (some r)).run s)
    rcases Mutator.run_allocVector_or hp elements with ⟨_, _, e, _, hr⟩ | ⟨_, ⟨_, hr⟩ | ⟨t, x, _⟩⟩
    · rw [run_bind_error hr]
      exact .denied rfl rfl rfl
    · rw [run_bind_error hr]
      exact .denied rfl rfl ((Journal.copies_report _ _).trans (List.append_nil _))
    · exact absurd x (hn t)
  | vectorSet => exact .other rfl (books_discard (Mutator.keeps_vectorSet (fun _ _ => rfl) _ _ _) s)
  | rootPush =>
    refine .other rfl (books_discard (Mutator.keeps_rootPush (fun _ _ => rfl) (fun s n => ?_) _) s)
    unfold Session.books
    dsimp only
    rw [Journal.copies_report]
    exact congrArg (fun cs => (s.collector.cursor, s.collector.stats, s.collector.cycles, cs)) (List.append_nil _)
  | rootPop => exact .other rfl (books_discard (Mutator.keeps_rootPop fun _ _ => rfl) s)
  | collect hr =>
    refine .other rfl ?_
    rw [run_collect hr]
    rfl

end Op

/-! ## Passes in the books -/

theorem Mutator.stats_of_runPass {s t : Session} {live : Nat} {p : PassSummary} (h : (runPass live).run s = .ok p t) :
    t.collector.stats = s.collector.stats := by
  unfold runPass at h
  rw [run_collector_bind] at h
  dsimp only at h
  rw [run_update_bind, run_modify_bind] at h
  split at h
  · cases h
  · cases h
    rfl

theorem Mutator.stats_of_runCycle {s m : Session} {live : Nat} {reason : Reason} {x : CycleSummary}
    (h : (runCycle live reason).run s = .ok x m) :
    m.collector.stats = s.collector.stats.addPass x.objectsCopied x.wordsBefore x.wordsAfter x.pause := by
  obtain ⟨p, hp, _, rfl⟩ := runCycle_ok h
  obtain ⟨t, hrun, _⟩ := run_runPass_ok (s := s.collecting live reason) hp
  have ho : (observing (runPass live)).run (s.collecting live reason) = .ok (.ok p.summary) t := by
    rw [run_observing, hrun]
    rfl
  have hstats : t.collector.stats = s.collector.stats := stats_of_runPass (s := s.collecting live reason) hrun
  unfold runCycle at h
  rw [run_collector_bind] at h
  dsimp only at h
  rw [run_update_bind, run_emit_bind] at h
  have h := (run_bind_ok ho _).symm.trans h
  cases h
  show t.collector.stats.addPass _ _ _ _ = _
  rw [hstats]
  rfl

/-- The pass `x` of an operation in `s` is run in `t`, which differs from `s` in what comes before, and
leaves `m` but for the roots. -/
structure Session.Runs (s t : Session) (x : CycleSummary) (m : Session) : Prop where
  ran : ∃ m', (Mutator.runCycle t.collector.roots.top x.reason).run t = .ok x m' ∧ m.books = m'.books ∧
    m.collector.arena = m'.collector.arena
  arena : t.collector.arena = s.collector.arena
  cursor : t.collector.cursor = s.collector.cursor
  cycles : t.collector.cycles = s.collector.cycles
  stats : t.collector.stats = if x.reason = .explicit then s.collector.stats else s.collector.stats.addTrigger
  copies : t.journal.copies = s.journal.copies

theorem Session.Cleared.runs {s m : Session} {n : Nat} {x : CycleSummary} (C : s.Cleared n [x] m) :
    s.Runs (s.triggered n) x m := by
  cases C with
  | swept _ hrun =>
    obtain ⟨_, _, _, rfl⟩ := Mutator.runCycle_ok hrun
    exact ⟨⟨m, hrun, rfl, rfl⟩, rfl, rfl, rfl, rfl, Logger.copies_record ..⟩

theorem Session.Cleared.length_le {s m : Session} {n : Nat} {xs : List CycleSummary} (C : s.Cleared n xs m) :
    xs = [] ∧ m = s ∨ ∃ x, xs = [x] := by
  cases C with
  | fits _ => exact Or.inl ⟨rfl, rfl⟩
  | @swept x _ _ _ => exact Or.inr ⟨x, rfl⟩

/-- Records that correspond to copies start at their targets. -/
theorem Arena.starts_eq_targets {a : Arena} {made : List Copy} {rs : List (Nat × Header)}
    (h : made.map (fun k => (k.target, k.words)) = rs.map fun e => (a.address ⟨a.active, e.1⟩, e.2.size)) :
    {w | a.Starts rs w} = {w | ∃ k ∈ made, k.target = w} := by
  have htargets : made.map Copy.target = rs.map fun e => a.address ⟨a.active, e.1⟩ := by
    have hfst := congrArg (List.map Prod.fst) h
    rw [List.map_map, List.map_map] at hfst
    exact hfst
  ext w
  show (∃ e ∈ rs, w = a.address ⟨a.active, e.1⟩) ↔ ∃ k ∈ made, k.target = w
  rw [← List.mem_map, htargets, List.mem_map]
  simp only [eq_comm]

namespace Session.Runs

variable {s t m : Session} {x : CycleSummary} (h : s.Runs t x m)
include h

theorem wellFormed (hw : s.collector.WellFormed) : t.collector.WellFormed := by
  unfold Collector.WellFormed
  rw [h.arena, h.cursor]
  exact hw

/-- Elements on the root stack do not show in the books. -/
theorem rooted {r : Session} {elements : List (Option Ref)} (hr : Rooted r elements s) (n : Nat) :
    r.Runs t x (m.truncated n) where
  ran := h.ran
  arena := h.arena.trans hr.arena
  cursor := h.cursor.trans hr.cursor
  cycles := h.cycles.trans hr.cycles
  stats := h.stats.trans (by rw [hr.stats])
  copies := h.copies.trans (congrArg Journal.copies hr.journal)

theorem wordsBefore : x.wordsBefore = s.collector.usedWords := by
  obtain ⟨m', hrun, _⟩ := h.ran
  obtain ⟨_, _, _, hx⟩ := Mutator.runCycle_ok hrun
  rw [hx]
  exact congrArg Cursor.top h.cursor

theorem wordsAfter (hw : s.collector.WellFormed) : m.collector.usedWords = x.wordsAfter := by
  obtain ⟨m', hrun, hb, _⟩ := h.ran
  obtain ⟨p, hp, hs, hx⟩ := Mutator.runCycle_ok hrun
  obtain ⟨_, htop, _⟩ := hs.copied (h.wellFormed hw) hp
  rw [hx]
  exact (congrArg (fun b => b.1.top) hb).trans htop

theorem cycles_eq : m.collector.cycles = s.collector.cycles + 1 := by
  obtain ⟨m', hrun, hb, _⟩ := h.ran
  obtain ⟨_, _, hs, _⟩ := Mutator.runCycle_ok hrun
  have hc : m.collector.cycles = m'.collector.cycles := congrArg (fun b => b.2.2.1) hb
  rw [hc, hs.cycles, h.cycles]

/-- The records that a pass leaves are the copies that it reports, in order. -/
theorem records (hw : s.collector.WellFormed) : ∃ made rs, m.journal.copies = s.journal.copies ++ made ∧
    m.collector.arena.Tiled rs m.collector.cursor.top ∧ made.map (fun k => (k.target, k.words)) =
      rs.map fun e => (m.collector.arena.address ⟨m.collector.arena.active, e.1⟩, e.2.size) := by
  obtain ⟨m', hrun, hb, ha⟩ := h.ran
  have hcursor : m.collector.cursor = m'.collector.cursor := congrArg (fun b => b.1) hb
  have hcopies : m.journal.copies = m'.journal.copies := congrArg (fun b => b.2.2.2) hb
  obtain ⟨p, hp, hs, _⟩ := Mutator.runCycle_ok hrun
  obtain ⟨_, _, ms, I, _, C, _⟩ := hs.copied (h.wellFormed hw) hp
  refine ⟨ms.map (Moved.copy t.collector.arena), ms.map Moved.block, ?_, ?_, ?_⟩
  · rw [hcopies, hs.copies, h.copies, I.noted]
  · rw [ha, hcursor]
    exact C.tiled
  · have haddr : ∀ o, m.collector.arena.address ⟨m.collector.arena.active, o⟩ =
        t.collector.arena.address ⟨t.collector.arena.inactive, o⟩ := by
      intro o
      rw [ha, C.active]
      unfold Arena.address
      rw [C.layout]
    rw [List.map_map, List.map_map]
    refine List.map_congr_left fun k _ => ?_
    exact Prod.ext (haddr _).symm rfl

theorem stats_eq : m.collector.stats =
    (if x.reason = .explicit then s.collector.stats else s.collector.stats.addTrigger).addPass x.objectsCopied
      x.wordsBefore x.wordsAfter x.pause := by
  obtain ⟨m', hrun, hb, _⟩ := h.ran
  have hs : m.collector.stats = m'.collector.stats := congrArg (fun b => b.2.1) hb
  rw [hs, Mutator.stats_of_runCycle hrun, h.stats]

end Session.Runs

/-! ## In a represented store -/

namespace Represents

variable {st : Store} {place : Nat → Ref} {live : Set Nat} {rs : List (Nat × Header)} {s t : Session}

/-- A pass copies records to one another's exclusion, so it leaves no more words in use than it found. -/
theorem pass_shrinks {m : Session} {reason : Reason} {x : CycleSummary} (R : Represents st place live rs s.collector)
    (h : (Mutator.runCycle s.collector.roots.top reason).run s = .ok x m) : x.wordsAfter ≤ x.wordsBefore := by
  obtain ⟨p, hp, _, rfl⟩ := Mutator.runCycle_ok h
  obtain ⟨ws, hn, hr⟩ := s.collector.arena.exists_reached s.collector.roots.toList
  obtain ⟨hsum, _⟩ := Collector.relocateLive_counts hp hn (s.collector.roots.bottom_top.symm ▸ hr)
  show p.cursor.top ≤ s.collector.cursor.top
  rw [hsum]
  refine R.tiled.sum_le R.top_le hn fun w hw => ?_
  obtain ⟨i, hi, rfl⟩ := R.reach_iff.mp ((hr w).mp hw)
  exact R.placed.mapsTo (R.live_of_reach hi)

/-- An operation on live objects completes its pass, which is run with the same records in use. -/
theorem sweeps (R : Represents st place live rs s.collector) {op : Op Nat} (hop : ∀ i ∈ op.refs, i ∈ live) :
    (∃ xs m, (op.map place).Sweeps s xs m) ∧ ∀ xs m, (op.map place).Sweeps s xs m →
      xs = [] ∧ m.books = s.books ∧ m.collector.arena = s.collector.arena ∨
      ∃ x t st', xs = [x] ∧ s.Runs t x m ∧ Represents st' place live rs t.collector := by
  have hscalar : ∃ xs m, s.Cleared headerWords xs m := Session.Cleared.exists_of_completes fun _ => R.completes
  have hcleared : ∀ {n xs m}, s.Cleared n xs m → xs = [] ∧ m.books = s.books ∧
      m.collector.arena = s.collector.arena ∨
      ∃ x t st', xs = [x] ∧ s.Runs t x m ∧ Represents st' place live rs t.collector := by
    intro n xs m C
    rcases C.length_le with ⟨rfl, rfl⟩ | ⟨x, rfl⟩
    · exact Or.inl ⟨rfl, rfl, rfl⟩
    · exact Or.inr ⟨x, s.triggered n, st, rfl, C.runs, R.congr rfl rfl rfl rfl⟩
  constructor
  · cases op with
    | allocInt v =>
      obtain ⟨xs, m, C⟩ := hscalar
      exact ⟨xs, m, .allocInt C⟩
    | allocBool v =>
      obtain ⟨xs, m, C⟩ := hscalar
      exact ⟨xs, m, .allocBool C⟩
    | allocVector elements =>
      by_cases hx : ∃ t, Rooted s (elements.map (Option.map place)) t
      · obtain ⟨t, x⟩ := hx
        obtain ⟨xs, m, C⟩ := @Session.Cleared.exists_of_completes t
          (Header.vectorWords (elements.map (Option.map place)).length) fun _ => (R.withElements hop x).completes
        exact ⟨xs, _, .allocVector x C⟩
      · exact ⟨[], s, .refused fun t x => hx ⟨t, x⟩⟩
    | vectorSet r i value => exact ⟨[], s, .vectorSet⟩
    | rootPush r => exact ⟨[], s, .rootPush⟩
    | rootPop => exact ⟨[], s, .rootPop⟩
    | collect =>
      obtain ⟨_, _, m, x, hrun, _⟩ := R.collectAll
      exact ⟨[x], m, .collect hrun⟩
  · intro xs m h
    cases op with
    | allocInt v => cases h with | allocInt C => exact hcleared C
    | allocBool v => cases h with | allocBool C => exact hcleared C
    | allocVector elements =>
      cases h with
      | @allocVector _ t m' _ x C =>
        rcases C.length_le with ⟨rfl, rfl⟩ | ⟨y, rfl⟩
        · have hbooks : m'.books = s.books := (congrArg Session.books x.rest).trans rfl
          exact Or.inl ⟨rfl, hbooks, x.arena⟩
        · exact Or.inr ⟨y, _, _, rfl, C.runs.rooted x _, (R.withElements hop x).congr rfl rfl rfl rfl⟩
      | refused _ => exact Or.inl ⟨rfl, rfl, rfl⟩
    | vectorSet r i value => cases h; exact Or.inl ⟨rfl, rfl, rfl⟩
    | rootPush r => cases h; exact Or.inl ⟨rfl, rfl, rfl⟩
    | rootPop => cases h; exact Or.inl ⟨rfl, rfl, rfl⟩
    | collect =>
      cases h with
      | @collect x m hr =>
        rw [Mutator.run_collect R.usable (Nat.le_refl _)] at hr
        have hreason : x.reason = .explicit := by
          obtain ⟨_, _, _, rfl⟩ := Mutator.runCycle_ok hr
          rfl
        exact Or.inr ⟨x, s, st, rfl, ⟨⟨m, hreason ▸ hr, rfl, rfl⟩, rfl, rfl, rfl, (if_pos hreason).symm, rfl⟩, R⟩

end Represents

end Semispace

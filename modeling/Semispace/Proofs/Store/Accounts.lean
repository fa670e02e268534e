import Semispace.Proofs.Store.Phases
import Semispace.Proofs.Store.Run

/-!
# Accounts

The counters of a collector against the history of its run (`Run.balances`). What was allocated is in
use or was reclaimed, because a pass takes the words in use for what it copies and what it reclaims.
-/

namespace Semispace

/-- The passes of a run, the last one first. -/
inductive Passes : List (Session × Op Ref) → List CycleSummary → Prop
  | nil : Passes [] []
  | step {past : List (Session × Op Ref)} {s m : Session} {op : Op Ref} {xs ys : List CycleSummary} :
      op.Sweeps s xs m → Passes past ys → Passes ((s, op) :: past) (xs ++ ys)

/-- The step has made an object. -/
def made (step : Session × Op Ref) : Bool :=
  step.2.allocates && (answer (step.2.perform.run step.1)).toOption.isSome

/-- The counters of a collector that has made `n` objects and run the passes `xs`, the last one first. -/
structure Accounts (c : Collector) (n : Nat) (xs : List CycleSummary) : Prop where
  words : c.stats.wordsAllocated = c.usedWords + c.stats.wordsReclaimed
  allocations : c.stats.allocations = n
  cycles : c.stats.cycles = c.cycles
  passes : c.stats.cycles = xs.length
  objectsCopied : c.stats.objectsCopied = (xs.map CycleSummary.objectsCopied).sum
  wordsCopied : c.stats.wordsCopied = (xs.map CycleSummary.wordsAfter).sum
  wordsReclaimed : c.stats.wordsReclaimed = (xs.map CycleSummary.wordsReclaimed).sum
  lastObjectsCopied : c.stats.lastObjectsCopied = (xs.head?.map CycleSummary.objectsCopied).getD 0
  lastWordsCopied : c.stats.lastWordsCopied = (xs.head?.map CycleSummary.wordsAfter).getD 0
  triggered : c.stats.allocationTriggered = xs.countP fun x => x.reason ≠ .explicit
  balanced : ∀ x ∈ xs, x.wordsBefore = x.wordsAfter + x.wordsReclaimed

namespace Accounts

variable {c c' : Collector} {s m : Session} {n : Nat} {xs : List CycleSummary} {x : CycleSummary}

theorem congr (A : Accounts c n xs) (hc : c'.cursor = c.cursor) (hs : c'.stats = c.stats) (hn : c'.cycles = c.cycles) :
    Accounts c' n xs := by
  have hu : c'.usedWords = c.usedWords := congrArg Cursor.top hc
  exact ⟨by rw [hs, hu]; exact A.words, hs ▸ A.allocations, by rw [hs, hn]; exact A.cycles, hs ▸ A.passes,
    hs ▸ A.objectsCopied, hs ▸ A.wordsCopied, hs ▸ A.wordsReclaimed, hs ▸ A.lastObjectsCopied, hs ▸ A.lastWordsCopied,
    hs ▸ A.triggered, A.balanced⟩

theorem of_books (A : Accounts s.collector n xs) (h : m.books = s.books) : Accounts m.collector n xs := by
  obtain ⟨hc, hb⟩ := Prod.mk.inj h
  obtain ⟨hs, hb⟩ := Prod.mk.inj hb
  exact A.congr hc hs (Prod.mk.inj hb).1

theorem placed {ws : List Word} {r : Ref} (A : Accounts m.collector n xs) (P : Placed m ws r s) :
    Accounts s.collector (n + 1) xs := by
  have hs := P.stats
  have hu : s.collector.usedWords = m.collector.usedWords + ws.length := P.extended.top
  have hw := A.words
  refine ⟨?_, ?_, ?_, hs ▸ A.passes, hs ▸ A.objectsCopied, hs ▸ A.wordsCopied, hs ▸ A.wordsReclaimed,
    hs ▸ A.lastObjectsCopied, hs ▸ A.lastWordsCopied, hs ▸ A.triggered, A.balanced⟩
  · rw [hs, hu]
    show m.collector.stats.wordsAllocated + ws.length = _ + m.collector.stats.wordsReclaimed
    omega
  · rw [hs]
    exact congrArg Nat.succ A.allocations
  · rw [hs, P.extended.cycles]
    exact A.cycles

/-- A pass that has not grown the heap goes into the books. -/
theorem swept {t : Session} (A : Accounts s.collector n xs) (hw : s.collector.WellFormed) (h : s.Runs t x m)
    (hle : x.wordsAfter ≤ x.wordsBefore) : Accounts m.collector n (x :: xs) := by
  have hbefore := h.wordsBefore
  have hafter := h.wordsAfter hw
  have hwords := A.words
  have hreclaimed : x.wordsBefore = x.wordsAfter + x.wordsReclaimed := (Nat.add_sub_cancel' hle).symm
  -- the trigger is counted before the pass and changes no other counter
  have htrigger : ∃ k, m.collector.stats = { s.collector.stats with allocationTriggered := k }.addPass
      x.objectsCopied x.wordsBefore x.wordsAfter x.pause ∧ k = (x :: xs).countP fun x => x.reason ≠ .explicit := by
    have hs := h.stats_eq
    rw [List.countP_cons, ← A.triggered]
    by_cases hr : x.reason = .explicit
    · rw [if_pos hr] at hs
      exact ⟨_, hs, by simp [hr]⟩
    · rw [if_neg hr] at hs
      exact ⟨_, hs, by simp [hr]⟩
  obtain ⟨k, hs, hk⟩ := htrigger
  refine ⟨?words, ?allocations, ?cycles, ?passes, ?objectsCopied, ?wordsCopied, ?wordsReclaimed, ?lastObjects,
    ?lastWords, ?triggered, ?balanced⟩
  case words =>
    rw [hs]
    show s.collector.stats.wordsAllocated = m.collector.usedWords + (s.collector.stats.wordsReclaimed + x.wordsReclaimed)
    omega
  case allocations => exact hs ▸ A.allocations
  case cycles =>
    rw [hs, h.cycles_eq, ← A.cycles]
    rfl
  case passes =>
    rw [hs, List.length_cons, ← A.passes]
    rfl
  case objectsCopied =>
    rw [hs, List.map_cons, List.sum_cons, ← A.objectsCopied, Nat.add_comm]
    rfl
  case wordsCopied =>
    rw [hs, List.map_cons, List.sum_cons, ← A.wordsCopied, Nat.add_comm]
    rfl
  case wordsReclaimed =>
    rw [hs, List.map_cons, List.sum_cons, ← A.wordsReclaimed, Nat.add_comm]
    rfl
  case lastObjects => exact hs ▸ rfl
  case lastWords => exact hs ▸ rfl
  case triggered => exact hs ▸ hk
  case balanced =>
    intro y hy
    rcases List.mem_cons.mp hy with rfl | hy
    · exact hreclaimed
    · exact A.balanced y hy

theorem settles {op : Op Ref} (A : Accounts m.collector n xs) (h : op.Settles m (op.perform.run s)) :
    Accounts (endState (op.perform.run s)).collector (n + if made (s, op) then 1 else 0) xs := by
  unfold made
  dsimp only
  generalize op.perform.run s = out at h
  cases h with
  | placed ha P =>
    rw [ha]
    exact A.placed P
  | denied ha hc _ =>
    rw [ha]
    exact A.congr (congrArg Collector.cursor hc) (congrArg Collector.stats hc) (congrArg Collector.cycles hc)
  | other ha hb =>
    rw [ha]
    exact A.of_books hb

theorem start {machine : Machine} {config : Config} {j j' : Journal}
    (h : (Collector.create machine config).run j = .ok c j') : Accounts c 0 [] := by
  have hc := Collector.run_create machine config j
  rw [h] at hc
  cases hc with
  | created _ _ _ => exact ⟨rfl, rfl, rfl, rfl, rfl, rfl, rfl, rfl, rfl, rfl, nofun⟩

end Accounts

/-- In every state of a run of a disciplined program its counters are those of its history, and every
pass splits the words that it finds in use into those it copies and those it reclaims. -/
theorem Run.balances {machine : Machine} {config : Config} {past : List (Session × Op Ref)} {s : Session}
    {known : Set Ref} (h : Run machine config past s known) :
    (∃ xs, Passes past xs) ∧ ∀ xs, Passes past xs →
      Accounts s.collector (past.countP made) xs ∧
      s.collector.stats.allocationTriggered ≤ s.collector.stats.cycles := by
  have haccounts : (∃ xs, Passes past xs) ∧ ∀ xs, Passes past xs → Accounts s.collector (past.countP made) xs := by
    induction h with
    | start hc =>
      refine ⟨⟨[], .nil⟩, fun xs hx => ?_⟩
      cases hx
      exact .start hc
    | @step past s known op hrun hop ih =>
      obtain ⟨⟨ys, hys⟩, hall⟩ := ih
      obtain ⟨st, ids, place, live, rs, R, hids, rfl, _, _⟩ := hrun.represents
      obtain ⟨op, rfl, hop'⟩ := R.exists_op hids hop
      obtain ⟨⟨xs, m, hx⟩, hsweeps⟩ := R.sweeps fun i hi => R.live_of_held hids (hop' i hi)
      refine ⟨⟨_, .step hx hys⟩, fun zs hz => ?_⟩
      cases hz with
      | @step _ _ m _ xs ys hx hys =>
        have A := hall ys hys
        rw [List.countP_cons]
        refine Accounts.settles (m := m) ?_ (hx.settles R.wellFormed R.usable)
        rcases hsweeps xs m hx with ⟨rfl, hb, _⟩ | ⟨x, t, st', rfl, hr, R'⟩
        · exact A.of_books hb
        · obtain ⟨_, hran, _⟩ := hr.ran
          exact A.swept R.wellFormed hr (R'.pass_shrinks hran)
  refine ⟨haccounts.1, fun xs hx => ⟨haccounts.2 xs hx, ?_⟩⟩
  rw [(haccounts.2 xs hx).triggered, (haccounts.2 xs hx).passes]
  exact List.countP_le_length

/-- A vector of 28 slots in a small collector, which leaves room for one integer. -/
def Session.spread : Session := endState ((Op.allocVector (List.replicate 28 none)).perform.run .small)

def Session.filled : Session := endState ((Op.allocInt 7).perform.run .spread)

/-- The collector with another integer, for which a pass has made room. -/
def Session.refilled : Session := endState ((Op.allocInt 8).perform.run .filled)

theorem balances_refilled : ∃ past known xs, Run .standard ⟨64, 4, false, false⟩ past .refilled known ∧
    Passes past xs ∧ Accounts Session.refilled.collector 3 xs ∧
    Session.refilled.collector.stats.allocationTriggered = 1 := by
  have hrun : Run .standard ⟨64, 4, false, false⟩ _ .refilled _ :=
    .step (.allocInt 8) (.step (.allocInt 7) (.step (.allocVector (List.replicate 28 none))
      (.start Session.small_created) nofun) nofun) nofun
  have hmade : List.countP made [(Session.filled, .allocInt 8), (Session.spread, .allocInt 7),
      (Session.small, .allocVector (List.replicate 28 none))] = 3 := by decide +kernel
  obtain ⟨⟨xs, hx⟩, h⟩ := hrun.balances
  exact ⟨_, _, xs, hrun, hx, hmade ▸ (h xs hx).1, by decide +kernel⟩

end Semispace

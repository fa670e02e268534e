import Semispace.Proofs.Collector.Action
import Semispace.Proofs.Parcel.Operations

/-!
# Passes over parcelled heaps

A pass over a parcelled heap meets objects only, so all that it can want is room. Each object that is a
single word takes one word more than was handed out for it. So a pass can leave more words in use than
it found, and fail in a half that everything fitted before (`DemandRun.pass_completes_iff`).
-/

namespace Semispace

/-! ## Demands as operations on a collector -/

namespace Demand

def action (s : Session) : Demand → Action
  | words n => .allocate n
  | op (.allocInt v) => .allocInt v
  | op (.allocBool v) => .allocBool v
  | op (.allocVector elements) => .allocVector elements
  | op (.vectorSet r i value) => .vectorSet r i value
  | op (.rootPush r) => .rootPush r
  | op .rootPop => .rootPop
  | op .collect => .collect s.collector.roots.top

theorem run_action (s : Session) (x : Demand) :
    (x.action s).perform.run s = (x.perform >>= fun _ => pure ()).run s := by
  have hforget : ∀ {α : Type} (y : Mutator α) (f : α → Option Ref),
      (y >>= fun _ => pure ()).run s = ((y >>= fun a => pure (f a)) >>= fun _ => pure ()).run s := by
    intro α y f
    rw [bind_assoc]
    rfl
  have hunit : ∀ y : Mutator Unit, y.run s = ((y >>= fun _ => pure none) >>= fun (_ : Option Ref) => pure ()).run s := by
    intro y
    rw [← hforget y fun _ => none, bind_pure_unit]
  cases x with
  | words n => exact hforget (Mutator.allocate n) some
  | op x =>
    cases x with
    | allocInt v => exact hforget (Mutator.allocInt v) some
    | allocBool v => exact hforget (Mutator.allocBool v) some
    | allocVector elements => exact hforget (Mutator.allocVector elements) some
    | vectorSet r i value => exact hunit (Mutator.vectorSet r i value)
    | rootPush r => exact hunit (Mutator.rootPush r)
    | rootPop => exact hforget Mutator.rootPop some
    | collect => exact hforget (Mutator.collect s.collector.roots.top) fun _ => none

theorem endState_action (s : Session) (x : Demand) :
    endState ((x.action s).perform.run s) = endState (x.perform.run s) := by
  rw [run_action, EStateM.run_bind]
  cases x.perform.run s <;> rfl

theorem run_of_action_error {s s' : Session} {x : Demand} {e : Error} (h : (x.action s).perform.run s = .error e s') :
    x.perform.run s = .error e s' := by
  rw [run_action, EStateM.run_bind] at h
  cases hr : x.perform.run s with
  | ok a t => rw [hr] at h; cases h
  | error e' t => rw [hr] at h; cases h; rfl

end Demand

/-! ## Runs -/

/-- The runs of programs that pass on only what they were given after the last pass: the session, the
references known, and the single words among these. -/
inductive DemandRun (machine : Machine) (config : Config) : Session → Set Ref → Set Ref → Prop
  | start {j j' : Journal} {c : Collector} :
    (Collector.create machine config).run j = .ok c j' → DemandRun machine config ⟨c, j'⟩ ∅ ∅
  | step {s : Session} {known narrow : Set Ref} (x : Demand) :
    DemandRun machine config s known narrow → (∀ r ∈ x.refs, Held s.collector known r) →
    DemandRun machine config (endState (x.perform.run s)) (knownAfter s known (x.perform.run s))
      (narrowAfter s narrow x (x.perform.run s))

theorem Collector.Fresh.stocked {config : Config} {c : Collector} (h : c.Fresh config) : Stocked ∅ ∅ c where
  wellFormed := h.wellFormed
  idle := h.phase
  parcelled := ⟨h.top ▸ Nat.zero_le _, nofun, nofun, nofun, nofun, nofun⟩
  rooted r hr := by
    rw [h.roots] at hr
    cases hr
  single := nofun

/-- In every state of a run the heap is parcelled, unless a pass has failed. -/
theorem DemandRun.stocked {machine : Machine} {config : Config} {s : Session} {known narrow : Set Ref}
    (h : DemandRun machine config s known narrow) : s.collector.phase = .poisoned ∨
      ∃ ps, Stocked narrow ps s.collector ∧ ∀ r ∈ known, s.collector.arena.Given ps r.addr := by
  induction h with
  | start hc => exact Or.inr ⟨∅, (Collector.create_fresh hc).stocked, nofun⟩
  | @step s known narrow x _ hx ih =>
    rcases ih with hp | ⟨ps, S, hk⟩
    · have hm : (x.action s).Mutates := by
        cases x with
        | words n => trivial
        | op x => cases x <;> trivial
      rw [Demand.run_of_action_error (Action.run_poisoned hp hm)]
      exact Or.inl hp
    · rcases S.perform x fun r hr => S.given_of_held hk (hx r hr) with hp | ⟨ps', S', hm, ha⟩
      · exact Or.inl hp
      · refine Or.inr ⟨ps', S', fun r hr => ?_⟩
        rcases hr with hr | ⟨hc, hr⟩
        · exact ha r hr
        · exact hm hc _ (S.given_of_held hk hr)

/-! ## Passes -/

/-- The live roots of a pass that a demand runs are parcels with room for a header. -/
theorem Stocked.live_whole {narrow known : Set Ref} {ps : Set Parcel} {s t : Session} {live : Nat} {x : Demand}
    (S : Stocked narrow ps s.collector) (hk : ∀ r ∈ known, s.collector.arena.Given ps r.addr)
    (hx : ∀ r ∈ x.refs, Held s.collector known r) (hs : (x.action s).Starts s t live) :
    ∀ r ∈ t.collector.roots.bottom live, s.collector.arena.Whole ps s.collector.cursor.top r.addr := by
  intro r hr
  rcases hs.live_roots hr with hr | ⟨elements, he, hmem, found, hc⟩
  · exact S.rooted r hr
  · cases x with
    | words n => cases he
    | op x =>
      cases x with
      | allocVector elements' =>
        cases he
        exact S.whole (S.given_of_held hk (hx r hmem)) hc
      | _ => cases he

/-- A pass of a program that may ask for any numbers of words. What its roots reach are objects, and it
completes exactly when they fit in a half; otherwise the destination is exhausted and the collector
poisoned. They take no more than the words in use and one more for each single word among them. So
without such a word every pass completes, and none leaves more words in use than it found. -/
theorem DemandRun.pass_completes_iff {machine : Machine} {config : Config} {s t : Session} {known narrow : Set Ref}
    {x : Demand} {live : Nat} (h : DemandRun machine config s known narrow) (hx : ∀ r ∈ x.refs, Held s.collector known r)
    (hs : (x.action s).Starts s t live) :
    let a := s.collector.arena
    let top := s.collector.cursor.top
    let roots := t.collector.roots.bottom live
    ∃ ws ns : List Word, ws.Nodup ∧ (∀ w, w ∈ ws ↔ a.Reach roots w) ∧
      ns.Nodup ∧ (∀ w, w ∈ ns ↔ a.Reach roots w ∧ ∃ r ∈ narrow, r.addr = w) ∧
      (∀ w ∈ ws, ∃ o hd, a.ObjectAt top w o hd) ∧
      (ws.map a.sizeAt).sum ≤ top + ns.length ∧
      ((ws.map a.sizeAt).sum ≤ a.spaceWords →
        (endState (x.perform.run s)).collector.phase = .idle ∧ ∀ reason, ∃ summary m,
          (Mutator.runCycle live reason).run t = .ok summary m ∧
          summary.wordsBefore = top ∧ summary.wordsAfter = (ws.map a.sizeAt).sum) ∧
      (a.spaceWords < (ws.map a.sizeAt).sum → ∃ w n k s',
        x.perform.run s = .error (.internal (.destinationExhausted w n k)) s' ∧ s'.collector.phase = .poisoned) ∧
      (ns = [] → (endState (x.perform.run s)).collector.phase = .idle ∧ ∀ reason, ∃ summary m,
        (Mutator.runCycle live reason).run t = .ok summary m ∧ summary.wordsAfter ≤ summary.wordsBefore) := by
  intro a top roots
  rcases h.stocked with hp | ⟨ps, S, hk⟩
  · exact absurd hp hs.usable
  have hbegins := hs.begins
  have hwhole := S.live_whole hk hx hs
  have P : a.Parcelled ps top := S.parcelled
  have hobjects : ∀ w, a.Reach roots w → ∃ o hd, a.ObjectAt top w o hd := by
    intro w hw
    obtain ⟨p, hp, rfl, hend⟩ := P.whole_of_reach hwhole hw
    obtain ⟨hd, x, _⟩ := P.objectAt hp hend
    exact ⟨p.offset, hd, x⟩
  classical
  obtain ⟨ws, hn, hr⟩ := a.exists_reached roots
  have hns : ∀ w, w ∈ ws.filter (fun w => ∃ r ∈ narrow, r.addr = w) ↔ a.Reach roots w ∧ ∃ r ∈ narrow, r.addr = w := by
    intro w
    rw [List.mem_filter, hr, decide_eq_true_iff]
  have hsum : (ws.map a.sizeAt).sum ≤ top + (ws.filter fun w => ∃ r ∈ narrow, r.addr = w).length := by
    refine P.sum_sizeAt_le hn (fun w hw => P.whole_of_reach hwhole ((hr w).mp hw)) fun p hp hh hw => ?_
    exact List.mem_filter.mpr ⟨hw, decide_eq_true (S.single p hp hh)⟩
  have hpass := @Collector.relocateLive_of_objects t.collector live ws
    (by rw [hbegins.arena, hbegins.cursor]; exact hobjects) hn (by rw [hbegins.arena]; exact hr)
  rw [hbegins.arena] at hpass
  have hcompletes : (ws.map a.sizeAt).sum ≤ a.spaceWords →
      (endState (x.perform.run s)).collector.phase = .idle ∧ ∀ reason, ∃ summary m,
        (Mutator.runCycle live reason).run t = .ok summary m ∧
        summary.wordsBefore = top ∧ summary.wordsAfter = (ws.map a.sizeAt).sum := by
    intro hle
    obtain ⟨p, hp, htop⟩ := hpass.1 hle
    refine ⟨?_, fun reason => ?_⟩
    · rw [← x.endState_action]
      exact hs.passed.phase_of_completed hp
    · obtain ⟨m, hrun, _⟩ := Mutator.run_runCycle_ok reason hp
      exact ⟨_, m, hrun, congrArg Cursor.top hbegins.cursor, htop⟩
  refine ⟨ws, _, hn, hr, hn.filter _, hns, fun w hw => hobjects w ((hr w).mp hw), hsum, hcompletes, ?fails, ?fits⟩
  case fails =>
    intro hlt
    obtain ⟨w, n, k, p, hp⟩ := hpass.2 hlt
    obtain ⟨s', hrun, hwrecked⟩ := hs.passed.run_error hp
    exact ⟨w, n, k, s', Demand.run_of_action_error hrun, hwrecked.phase⟩
  case fits =>
    intro hnone
    rw [hnone] at hsum
    obtain ⟨hidle, hrun⟩ := hcompletes (hsum.trans P.top_le)
    refine ⟨hidle, fun reason => ?_⟩
    obtain ⟨summary, m, h, hbefore, hafter⟩ := hrun reason
    exact ⟨summary, m, h, by rw [hbefore, hafter]; exact hsum⟩

/-! ## Three words -/

/-- A collector with three words in each half, just started. -/
def Session.tiny : Session :=
  let r := (Collector.create .standard ⟨6, 4, false, false⟩).run .empty
  ⟨(answer r).toOption.get (by decide +kernel), endState r⟩

theorem Session.tiny_created :
    (Collector.create .standard ⟨6, 4, false, false⟩).run .empty = .ok Session.tiny.collector Session.tiny.journal :=
  eq_ok_get (by decide +kernel)

/-- The session after some demands, whatever each of them answers. -/
def Session.serve (s : Session) (xs : List Demand) : Session :=
  xs.foldl (fun s x => endState (x.perform.run s)) s

def Ref.first : Ref := (answer ((Demand.words 1).perform.run .tiny)).toOption.join.get (by decide +kernel)

def Ref.second : Ref :=
  (answer ((Demand.words 1).perform.run (Session.tiny.serve [.words 1]))).toOption.join.get (by decide +kernel)

/-- Every word was asked for alone, and the first two are roots. -/
def Session.crammed : Session :=
  Session.tiny.serve [.words 1, .words 1, .op (.rootPush .first), .words 1, .op (.rootPush .second)]

theorem exists_run_crammed : ∃ known narrow, DemandRun .standard ⟨6, 4, false, false⟩ .crammed known narrow := by
  have hfirst : answer ((Demand.words 1).perform.run .tiny) = .ok (some Ref.first) := by decide +kernel
  have hsecond : answer ((Demand.words 1).perform.run (Session.tiny.serve [.words 1])) = .ok (some Ref.second) := by
    decide +kernel
  have h₁ := (DemandRun.start Session.tiny_created).step (.words 1) nofun
  have h₂ := h₁.step (.words 1) nofun
  have h₃ := h₂.step (.op (.rootPush .first)) fun r hr => by
    rw [List.mem_singleton.mp hr]
    exact .known (Or.inr ⟨by decide +kernel, .known (Or.inl hfirst)⟩)
  have h₄ := h₃.step (.words 1) nofun
  have h₅ := h₄.step (.op (.rootPush .second)) fun r hr => by
    rw [List.mem_singleton.mp hr]
    exact .known (Or.inr ⟨by decide +kernel, .known (Or.inr ⟨by decide +kernel, .known (Or.inl hsecond)⟩)⟩)
  exact ⟨_, _, h₅⟩

/-- The two roots need four words. -/
theorem pass_exhausts_crammed : ∃ known narrow, DemandRun .standard ⟨6, 4, false, false⟩ .crammed known narrow ∧
    Session.crammed.collector.cursor.top = 3 ∧ ∃ s', (Demand.op .collect).perform.run .crammed =
      .error (.internal (.destinationExhausted Ref.second.addr 2 1)) s' := by
  obtain ⟨known, narrow, hrun⟩ := exists_run_crammed
  have h : answer ((Demand.op .collect).perform.run .crammed) =
      .error (.internal (.destinationExhausted Ref.second.addr 2 1)) := by decide +kernel
  exact ⟨known, narrow, hrun, by decide +kernel, exists_of_answer_error h⟩

/-- What they reach outgrows the words in use, for one of them at least was handed out alone. -/
theorem pass_completes_iff_crammed : ∃ known narrow, DemandRun .standard ⟨6, 4, false, false⟩ .crammed known narrow ∧
    ∃ ws ns : List Word, (∀ w ∈ ns, w ∈ ws ∧ ∃ r ∈ narrow, r.addr = w) ∧
      3 < (ws.map Session.crammed.collector.arena.sizeAt).sum ∧ 0 < ns.length := by
  obtain ⟨known, narrow, hrun⟩ := exists_run_crammed
  have htop : Session.crammed.collector.cursor.top = 3 := by decide +kernel
  have hspace : Session.crammed.collector.arena.spaceWords = 3 := by decide +kernel
  have hfails : (endState ((Demand.op .collect).perform.run .crammed)).collector.phase = .poisoned := by decide +kernel
  have hstarts : ((Demand.op .collect).action .crammed).Starts .crammed .crammed Session.crammed.collector.roots.top :=
    .collect (by decide +kernel) (Nat.le_refl _)
  obtain ⟨ws, ns, _, hr, _, hns, _, hsum, hcompletes, _⟩ := hrun.pass_completes_iff (x := .op .collect) nofun hstarts
  rw [hspace] at hcompletes
  rw [htop] at hsum
  have hlt : 3 < (ws.map Session.crammed.collector.arena.sizeAt).sum := by
    by_contra hle
    have hidle := (hcompletes (Nat.not_lt.mp hle)).1
    rw [hfails] at hidle
    cases hidle
  refine ⟨known, narrow, hrun, ws, ns, fun w hw => ?_, hlt, by omega⟩
  obtain ⟨hreach, hmem⟩ := (hns w).mp hw
  exact ⟨(hr w).mpr hreach, hmem⟩

end Semispace

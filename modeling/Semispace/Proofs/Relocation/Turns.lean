import Semispace.Proofs.Relocation.Transfer

/-!
# The turns of a scan

A scan goes round by round over the copies, and in each round it takes the slots of one copy in turn
(`roundsFrom`, `Round.turns`). The copies lie one after another and no header is overwritten, so a round
finds the header that the object had, and a turn may read and write its slot. Whatever the words of the
heap, a scan fails only where `relocate` does (`scan_fails_in_relocate`).
-/

namespace Semispace.Pass

/-- A turn of the loop over the slots of a copy: the slot, and the pass when its turn comes. -/
structure Turn where
  slot : Location
  pass : Pass

/-- The turns of the loop over `n` slots from a location on. -/
def turns (loc : Location) : Nat → Pass → List Turn
  | 0, _ => []
  | n + 1, p =>
    ⟨loc, p⟩ :: match (relocateSlot loc).run p with
      | .error _ _ => []
      | .ok _ p' => turns (loc.add 1) n p'

/-- A round of the loop over the copies: the scan pointer, and the pass when the pointer gets there. -/
structure Round where
  pointer : Nat
  pass : Pass

namespace Round

def place (ρ : Round) : Location := ⟨ρ.pass.destination, ρ.pointer⟩

def turns (ρ : Round) : List Turn :=
  match Header.read ρ.pass.arena ρ.place with
  | .error _ => []
  | .ok h => Pass.turns (ρ.place.add headerWords) h.slotCount ρ.pass

end Round

def roundsFrom (σ : Nat) (p : Pass) : List Round :=
  if σ < p.cursor.top then
    ⟨σ, p⟩ :: match _ : (scanObject σ).run p with
      | .error _ _ => []
      | .ok n p' => roundsFrom (σ + n) p'
  else []
termination_by p.capacity - σ
decreasing_by
  have h : (scanObject σ).run p = .ok n p' := by assumption
  have h1 := keeps_scanObject σ p
  have h2 := pos_of_scanObject h
  have h3 := p.cursor.top_le
  rw [h, endState_ok] at h1
  unfold capacity at h1 ⊢
  omega

section
variable {σ n : Nat} {p p' : Pass} {e : Error} {loc : Location}

theorem roundsFrom_done (h : p.cursor.top ≤ σ) : roundsFrom σ p = [] := by
  rw [roundsFrom, if_neg (Nat.not_lt.mpr h)]

theorem roundsFrom_error (h : σ < p.cursor.top) (hr : (scanObject σ).run p = .error e p') :
    roundsFrom σ p = [⟨σ, p⟩] := by
  rw [roundsFrom, if_pos h]
  split
  · rfl
  · next hr' => rw [hr] at hr'; cases hr'

theorem roundsFrom_next (h : σ < p.cursor.top) (hr : (scanObject σ).run p = .ok n p') :
    roundsFrom σ p = ⟨σ, p⟩ :: roundsFrom (σ + n) p' := by
  rw [roundsFrom, if_pos h]
  split
  · next hr' => rw [hr] at hr'; cases hr'
  · next hr' => rw [hr] at hr'; cases hr'; rfl

/-- The rounds are those that the loop goes. -/
theorem rounds_roundsFrom (σ : Nat) (p : Pass) :
    ∃ σ', Rounds σ p ((roundsFrom σ p).map Round.pointer) σ' (scanFrom σ p) := by
  induction σ, p using Pass.scanFrom.induct with
  | case1 σ p hlt e p' hr =>
    rw [scanFrom_error hlt hr, roundsFrom_error hlt hr]
    exact ⟨_, .failed hlt hr⟩
  | case2 σ p hlt n p' hr ih =>
    obtain ⟨σ', h⟩ := ih
    rw [scanFrom_next hlt hr, roundsFrom_next hlt hr]
    exact ⟨σ', .next hlt hr h⟩
  | case3 σ p hlt =>
    rw [scanFrom_done (Nat.not_lt.mp hlt), roundsFrom_done (Nat.not_lt.mp hlt)]
    exact ⟨σ, .done (Nat.not_lt.mp hlt)⟩

theorem turns_error (hr : (relocateSlot loc).run p = .error e p') : turns loc (n + 1) p = [⟨loc, p⟩] := by
  rw [turns, hr]

theorem turns_next {u : Unit} (hr : (relocateSlot loc).run p = .ok u p') :
    turns loc (n + 1) p = ⟨loc, p⟩ :: turns (loc.add 1) n p' := by
  rw [turns, hr]

theorem run_relocateSlots_error (hr : (relocateSlot loc).run p = .error e p') :
    (relocateSlots loc (n + 1)).run p = .error e p' :=
  run_bind_error hr _

theorem run_relocateSlots_next {u : Unit} (hr : (relocateSlot loc).run p = .ok u p') :
    (relocateSlots loc (n + 1)).run p = (relocateSlots (loc.add 1) n).run p' :=
  run_bind_ok hr _

variable {h : Header} {ρ : Round}

theorem Round.turns_eq (hr : Header.read ρ.pass.arena ρ.place = .ok h) :
    ρ.turns = Pass.turns (ρ.place.add headerWords) h.slotCount ρ.pass := by
  rw [Round.turns, hr]

end

/-! ## Turns that are permitted -/

/-- A turn that reads its slot, and can write to it whatever `relocate` answers for the word there. -/
structure Turn.Permitted (t : Turn) (w : Word) : Prop where
  read : t.pass.arena.read t.slot = .ok w
  write : ∀ new p', (relocate w).run t.pass = .ok new p' → ∃ b, p'.arena.write t.slot new = .ok b

/-- The pass after a turn: the word was relocated, and written back if it has changed. -/
inductive Turn.Done (t : Turn) (w : Word) : Pass → Prop
  | kept {p : Pass} : (relocate w).run t.pass = .ok w p → Done t w p
  | written {new : Word} {p : Pass} {b : Arena} : (relocate w).run t.pass = .ok new p → new ≠ w →
      p.arena.write t.slot new = .ok b → Done t w (p.setArena b)

namespace Turn.Permitted

variable {loc : Location} {p p' : Pass} {w : Word}

theorem done {u : Unit} (h : Turn.Permitted ⟨loc, p⟩ w) (hr : (relocateSlot loc).run p = .ok u p') :
    Turn.Done ⟨loc, p⟩ w p' := by
  unfold relocateSlot at hr
  rw [run_get_bind, run_liftM_bind h.read] at hr
  obtain ⟨new, q, hrel, hr⟩ := exists_of_run_bind hr
  by_cases hne : new = w
  · subst hne
    rw [if_neg (not_not_intro rfl)] at hr
    cases hr
    exact .kept hrel
  · obtain ⟨b, hb⟩ := h.write new q hrel
    rw [if_pos hne, run_get_bind, run_liftM_bind hb] at hr
    cases hr
    exact .written hrel hne hb

/-- A permitted turn only fails where `relocate` does. -/
theorem refused {e : Error} (h : Turn.Permitted ⟨loc, p⟩ w) (hr : (relocateSlot loc).run p = .error e p') :
    (relocate w).run p = .error e p' := by
  unfold relocateSlot at hr
  rw [run_get_bind, run_liftM_bind h.read] at hr
  cases hrel : (relocate w).run p with
  | error e' q =>
    rw [run_bind_error hrel] at hr
    cases hr
    rfl
  | ok new q =>
    rw [run_bind_ok hrel] at hr
    split at hr
    · obtain ⟨b, hb⟩ := h.write new q hrel
      rw [run_get_bind, run_liftM_bind hb] at hr
      cases hr
    · cases hr

end Turn.Permitted

/-- Permitted turns one after another, and nothing else, up to one in which `relocate` fails. -/
inductive Traced : Pass → List Turn → EStateM.Result Error Pass Unit → Prop
  | done {p : Pass} : Traced p [] (.ok () p)
  | failed {t : Turn} {w : Word} {e : Error} {p : Pass} : t.Permitted w → (relocate w).run t.pass = .error e p →
      Traced t.pass [t] (.error e p)
  | next {t : Turn} {w : Word} {p : Pass} {ts : List Turn} {r : EStateM.Result Error Pass Unit} : t.Permitted w →
      t.Done w p → Traced p ts r → Traced t.pass (t :: ts) r

namespace Traced

variable {p p' : Pass} {ts us : List Turn} {r : EStateM.Result Error Pass Unit}

theorem append (h : Traced p ts (.ok () p')) (h' : Traced p' us r) : Traced p (ts ++ us) r := by
  generalize hok : (EStateM.Result.ok () p' : EStateM.Result Error Pass Unit) = r' at h
  induction h with
  | done => cases hok; exact h'
  | failed _ _ => cases hok
  | next ht hdone _ ih => exact .next ht hdone (ih hok)

theorem permitted (h : Traced p ts r) : ∀ t ∈ ts, ∃ w, t.Permitted w := by
  induction h with
  | done => exact fun t ht => absurd ht List.not_mem_nil
  | failed ht _ => exact fun t hm => List.mem_singleton.mp hm ▸ ⟨_, ht⟩
  | next ht _ _ ih => exact List.forall_mem_cons.mpr ⟨⟨_, ht⟩, ih⟩

/-- What fails is `relocate`, in the last turn. -/
theorem refused {e : Error} (h : Traced p ts (.error e p')) :
    ∃ t w, ts.getLast? = some t ∧ t.Permitted w ∧ (relocate w).run t.pass = .error e p' := by
  generalize hr : (EStateM.Result.error e p' : EStateM.Result Error Pass Unit) = r at h
  induction h with
  | done => cases hr
  | failed ht hrel =>
    cases hr
    exact ⟨_, _, rfl, ht, hrel⟩
  | next _ _ _ ih =>
    obtain ⟨t, w, hlast, ht⟩ := ih hr
    refine ⟨t, w, ?_, ht⟩
    rw [List.getLast?_cons, hlast]
    rfl

end Traced

/-- How an operation ends, without its answer. -/
def ending {α : Type} : EStateM.Result Error Pass α → EStateM.Result Error Pass Unit
  | .ok _ p => .ok () p
  | .error e p => .error e p

/-- Scanning a copy is relocating the slots that its header tells of. -/
theorem ending_scanObject {σ : Nat} {p : Pass} {h : Header} (hr : Header.read p.arena ⟨p.destination, σ⟩ = .ok h) :
    ending ((scanObject σ).run p) =
      (relocateSlots (Location.add ⟨p.destination, σ⟩ headerWords) h.slotCount).run p := by
  unfold scanObject
  rw [run_get_bind]
  dsimp only
  rw [run_liftM_bind hr, EStateM.run_bind]
  cases (relocateSlots (Location.add ⟨p.destination, σ⟩ headerWords) h.slotCount).run p <;> rfl

/-! ## The loops -/

/-- A round at the start of a copy: it finds there the header that the object had, and no turn is
refused its slot. -/
structure Round.Sound (a : Arena) (top : Nat) (ρ : Round) (h : Header) : Prop where
  copied : ∃ w o, a.ObjectAt top w o h ∧
    ⟨h.tag, h.size, w, ρ.pass.arena.address ρ.place⟩ ∈ ρ.pass.copier.copies.toList
  read : Header.read ρ.pass.arena ρ.place = .ok h
  sized : h.size? = some h.size
  step : ∀ n p', (scanObject ρ.pointer).run ρ.pass = .ok n p' → n = h.size
  permitted : ∀ t ∈ ρ.turns, ∃ w, t.Permitted w

theorem size?_eq {a : Arena} {h : Header} (hle : h.size ≤ a.spaceWords) : h.size? = some h.size :=
  if_pos (Nat.lt_of_le_of_lt hle a.layout.spaceWords_lt)

variable {a : Arena} {top σ : Nat} {roots : List Ref} {ms : List Moved} {p : Pass}

namespace Invariant

theorem permitted (I : Invariant a top roots ms σ p) {m : Moved} (hm : m ∈ ms) {j : Nat} (hσ : m.target + j = σ)
    (hj : j < m.header.size) (hj2 : headerWords ≤ j) :
    Turn.Permitted ⟨⟨a.inactive, σ⟩, p⟩ (a.word ⟨a.active, m.source + j⟩) := by
  refine ⟨I.read_slot hm hσ hj, fun new p' hrel => ?_⟩
  have hout := I.relocate fun hz => I.reach_slot hm hj hj2 hz
  rw [show (Pass.relocate (a.word ⟨a.active, m.source + j⟩)).run p = .ok new p' from hrel] at hout
  cases hout with
  | ok _ I' _ =>
    have hlt : (⟨a.inactive, σ⟩ : Location).offset < p'.arena.spaceWords := I'.spaceWords ▸ I.slot_lt hm hσ hj
    obtain ⟨b, hb, _⟩ := Arena.write_ok new hlt (I'.isOpen _)
    exact ⟨b, hb⟩

/-- The turns of a moved object, from its slot at the scan pointer on. -/
theorem traced_slots : ∀ {n j σ : Nat} {ms : List Moved} {p : Pass} {m : Moved}, Invariant a top roots ms σ p →
    m ∈ ms → m.target + j = σ → j + n = m.header.size → headerWords ≤ j →
    Traced p (Pass.turns ⟨a.inactive, σ⟩ n p) ((Pass.relocateSlots ⟨a.inactive, σ⟩ n).run p)
  | 0, _, _, _, _, _, _, _, _, _, _ => .done
  | n + 1, j, σ, ms, p, m, I, hm, hσ, hj, hj2 => by
    have hfirst := I.permitted hm hσ (by omega) hj2
    have hout := I.relocateSlot hm hσ (by omega) hj2
    cases hr : (Pass.relocateSlot ⟨a.inactive, σ⟩).run p with
    | error e p' =>
      rw [turns_error hr, run_relocateSlots_error hr]
      exact .failed hfirst (hfirst.refused hr)
    | ok u p' =>
      rw [hr] at hout
      cases hout with
      | ok hs I' hq =>
        obtain ⟨rfl, _⟩ := hq
        rw [turns_next hr, run_relocateSlots_next hr]
        exact .next hfirst (hfirst.done hr) (traced_slots (n := n) (j := j + 1) (σ := σ + 1) I' (hs.subset hm)
          (by omega) (by omega) (by omega))

/-- The round at the start of a copy takes the slots of the copy in turn. -/
theorem turns_round (I : Invariant a top roots ms σ p) {m : Moved} (hm : m ∈ ms) (hσ : m.target = σ) :
    Round.turns ⟨σ, p⟩ = Pass.turns ⟨a.inactive, σ + headerWords⟩ m.header.slotCount p ∧
      ending ((Pass.scanObject σ).run p) =
        (Pass.relocateSlots ⟨a.inactive, σ + headerWords⟩ m.header.slotCount).run p := by
  have hread : Header.read p.arena ⟨p.destination, σ⟩ = .ok m.header := hσ ▸ I.read_header hm
  have hslots : Location.add ⟨p.destination, σ⟩ headerWords = ⟨a.inactive, σ + headerWords⟩ := by
    rw [I.destination]; rfl
  rw [ending_scanObject hread, Round.turns_eq (ρ := ⟨σ, p⟩) hread, Round.place, hslots]
  exact ⟨rfl, rfl⟩

theorem round (I : Invariant a top roots ms σ p) {m : Moved} (hm : m ∈ ms) (hσ : m.target = σ) :
    Round.Sound a top ⟨σ, p⟩ m.header ∧ Traced p (Round.turns ⟨σ, p⟩) (ending ((Pass.scanObject σ).run p)) := by
  have htraced : Traced p (Round.turns ⟨σ, p⟩) (ending ((Pass.scanObject σ).run p)) := by
    obtain ⟨hturns, hending⟩ := I.turns_round hm hσ
    rw [hturns, hending]
    exact (I.skip_header hm hσ).traced_slots (j := headerWords) hm (by omega) m.header.size_eq.symm (Nat.le_refl _)
  have x := I.objects m hm
  refine ⟨⟨⟨m.old, m.source, x, ?_⟩, hσ ▸ I.read_header hm, size?_eq (Nat.le_trans (Nat.le_add_left ..) x.inside),
    fun n p' hr => ?_, htraced.permitted⟩, htraced⟩
  · rw [I.noted, Round.place, I.destination, I.address, ← hσ]
    exact List.mem_map_of_mem (f := Moved.copy a) hm
  · have hout := I.scanObject hm hσ
    rw [show (Pass.scanObject σ).run p = .ok n p' from hr] at hout
    cases hout with
    | ok _ _ hq => exact hq.1

theorem rounds_sound {rest : List Moved} (I : Invariant a top roots ms σ p) (hb : Boundary ms rest σ) :
    (∀ ρ ∈ roundsFrom σ p, ∃ h, ρ.Sound a top h) ∧
      Traced p ((roundsFrom σ p).flatMap Round.turns) (Pass.scanFrom σ p) := by
  refine scan_induct (C := fun σ p _ _ => (∀ ρ ∈ roundsFrom σ p, ∃ h, ρ.Sound a top h) ∧
    Traced p ((roundsFrom σ p).flatMap Round.turns) (Pass.scanFrom σ p)) ?done ?failed ?next σ p I hb
  case done =>
    intro ms p I
    rw [roundsFrom_done (Nat.le_refl _), scanFrom_done (Nat.le_refl _)]
    exact ⟨fun _ hρ => absurd hρ List.not_mem_nil, .done⟩
  case failed =>
    intro ms rest m σ p e p' I hm hσ hlt hr
    obtain ⟨hsound, htraced⟩ := I.round hm hσ
    rw [hr] at htraced
    rw [roundsFrom_error hlt hr, scanFrom_error hlt hr, List.flatMap_singleton]
    exact ⟨fun ρ hρ => List.mem_singleton.mp hρ ▸ ⟨_, hsound⟩, htraced⟩
  case next =>
    intro ms rest m σ p more p' I hm hσ hlt hr _ _ ih
    obtain ⟨hsound, htraced⟩ := I.round hm hσ
    rw [hr] at htraced
    rw [roundsFrom_next hlt hr, scanFrom_next hlt hr, List.flatMap_cons]
    exact ⟨List.forall_mem_cons.mpr ⟨⟨_, hsound⟩, ih.1⟩, htraced.append ih.2⟩

theorem underway (I : Invariant a top roots ms σ p) : Underway a top p := by
  refine ⟨I.layout, I.active, I.opened, I.capacity, I.sourceTop, fun w hw => ?_⟩
  by_contra hno
  refine hw (I.find?_eq_none fun m hm he => hno ?_)
  have x := I.objects m hm
  exact ⟨m.source, x.below, he ▸ x.located⟩

/-- Roots leave the copies unscanned, also when one of them is refused. -/
theorem afterRoots : ∀ {rs : List Ref} {σ : Nat} {ms : List Moved} {p : Pass}, Invariant a top roots ms σ p →
    (∀ r ∈ rs, r ∈ roots) → ∃ ms', Invariant a top roots ms' σ (endState (Pass.relocateRoots rs p).2)
  | [], _, ms, _, I, _ => ⟨ms, I⟩
  | r :: rs, σ, ms, p, I, hr => by
    have hout := I.relocate (w := r.addr) fun _ => .root (hr r (List.mem_cons_self ..))
    cases hrel : (Pass.relocate r.addr).run p with
    | error e q =>
      obtain ⟨rfl, _⟩ := (I.underway.relocate r.addr).2 e q hrel
      rw [relocateRoots_cons_error rs hrel]
      exact ⟨ms, I⟩
    | ok w q =>
      rw [hrel] at hout
      cases hout with
      | @ok _ ms' _ _ _ I' hq =>
        obtain ⟨rfl, _⟩ := hq
        cases hw : Ref.ofWord? w with
        | none =>
          rw [relocateRoots_cons_null rs hrel hw]
          exact ⟨ms', I'⟩
        | some new =>
          rw [relocateRoots_cons_ok rs hrel hw]
          exact afterRoots I' fun r' hr' => hr r' (List.mem_cons_of_mem _ hr')

end Invariant

/-- Whatever the words of the heap and the roots, each round of the scan after the roots starts where a copy
does, finds the header that the object had, and may read and write the slots of the copy. If the scan
fails, then because `relocate` does, in the last turn. -/
theorem scan_fails_in_relocate {q : Pass} (h : start a top = .ok q) (roots : List Ref) :
    let moved := endState (relocateRoots roots q).2
    let turns := (roundsFrom 0 moved).flatMap Round.turns
    (∃ σ, Rounds 0 moved ((roundsFrom 0 moved).map Round.pointer) σ (scan.run moved)) ∧
    (∀ ρ ∈ roundsFrom 0 moved, ∃ h, ρ.Sound a top h) ∧ Traced moved turns (scan.run moved) ∧
    ∀ e p', scan.run moved = .error e p' → ∃ t w, turns.getLast? = some t ∧ t.Permitted w ∧
      (relocate w).run t.pass = .error e p' := by
  have I := Invariant.start a top roots
  rw [← start_eq_ok h] at I
  obtain ⟨ms, I'⟩ := I.afterRoots fun r hr => hr
  obtain ⟨hsound, htraced⟩ := I'.rounds_sound (Boundary.zero ms)
  refine ⟨rounds_roundsFrom 0 _, hsound, htraced, fun e p' hscan => ?_⟩
  have hscan : scanFrom 0 (endState (relocateRoots roots q).2) = .error e p' := hscan
  rw [hscan] at htraced
  exact htraced.refused

/-- A vector that refers to itself and to a word that is no tag. -/
def torn : Arena :=
  let words : List (Nat × Word) :=
    [(0, 2), (1, 2), (2, knot.address ⟨.low, 0⟩), (3, knot.address ⟨.low, 4⟩), (4, 42)]
  { knot with memory := words.foldl (fun m e => m.write e.1 e.2) .empty }

def tornRoots : List Ref := [torn.address ⟨.low, 0⟩].filterMap Ref.ofWord?

theorem scan_fails_in_relocate_torn : ∃ q e p', start torn 5 = .ok q ∧
    let moved := endState (relocateRoots tornRoots q).2
    scan.run moved = .error e p' ∧ e = .corruptObject (torn.address ⟨.low, 4⟩) (.unknownTag 42) ∧
    (∀ ρ ∈ roundsFrom 0 moved, ∃ h, ρ.Sound torn 5 h) ∧
    ∃ t w, ((roundsFrom 0 moved).flatMap Round.turns).getLast? = some t ∧ t.Permitted w ∧
      (relocate w).run t.pass = .error e p' := by
  have h : start torn 5 = .ok (ofArena torn 5) := if_neg (by decide +kernel)
  obtain ⟨_, hsound, _, hfails⟩ := scan_fails_in_relocate h tornRoots
  obtain ⟨p', hscan⟩ := exists_of_answer_error (r := scan.run (endState (relocateRoots tornRoots (ofArena torn 5)).2))
    (e := .corruptObject (torn.address ⟨.low, 4⟩) (.unknownTag 42)) (by decide +kernel)
  exact ⟨_, _, p', h, hscan, rfl, hsound, hfails _ p' hscan⟩

end Semispace.Pass

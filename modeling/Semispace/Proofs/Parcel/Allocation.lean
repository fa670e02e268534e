import Semispace.Proofs.Parcel.Heap
import Semispace.Proofs.Store.Run

/-!
# Allocation in a parcelled heap

A demand is an operation on objects or asks for a number of words, any number. What it is handed out
lies after all parcels, if need be after a pass that leaves records only, and is one more parcel.
-/

namespace Semispace

/-! ## Demands -/

inductive Demand
  | words (n : Nat)
  | op (x : Op Ref)

def Demand.refs : Demand → List Ref
  | words _ => []
  | op x => x.refs

def Demand.perform : Demand → Mutator (Option Ref)
  | words n => do return some (← Mutator.allocate n)
  | op x => x.perform

/-! ## Parcelled collectors -/

/-- A collector with a parcelled heap: it is idle, its roots are parcels in which there is room for a
header, and its single words are among `narrow`. -/
structure Stocked (narrow : Set Ref) (ps : Set Parcel) (c : Collector) : Prop where
  wellFormed : c.WellFormed
  idle : c.phase = .idle
  parcelled : c.arena.Parcelled ps c.cursor.top
  rooted : ∀ r ∈ c.roots.toList, c.arena.Whole ps c.cursor.top r.addr
  single : ∀ p ∈ ps, p.header = none → ∃ r ∈ narrow, r.addr = c.arena.address ⟨c.arena.active, p.offset⟩

/-- What was given stays so, unless there was a pass. -/
def Carries (ps : Set Parcel) (c : Collector) (ps' : Set Parcel) (c' : Collector) : Prop :=
  c'.cycles = c.cycles → ∀ w, c.arena.Given ps w → c'.arena.Given ps' w

/-- Those of the references that are not older than the last pass. -/
def unlessPassed (c c' : Collector) (rs : Set Ref) : Set Ref := {r | c'.cycles = c.cycles ∧ r ∈ rs}

theorem Carries.refl {ps : Set Parcel} {c : Collector} : Carries ps c ps c := fun _ _ h => h

namespace Stocked

variable {narrow narrow' : Set Ref} {ps : Set Parcel} {c c' : Collector} {s s' : Session} {r : Ref} {q : Parcel}

theorem mono (S : Stocked narrow ps c) (h : narrow ⊆ narrow') : Stocked narrow' ps c :=
  { S with single := fun p hp hh => (S.single p hp hh).imp fun _ hr => ⟨h hr.1, hr.2⟩ }

theorem usable (S : Stocked narrow ps c) : c.phase ≠ .poisoned := by
  rw [S.idle]
  exact nofun

theorem top_le (S : Stocked narrow ps c) : c.cursor.top ≤ c.arena.spaceWords := S.parcelled.top_le

/-- Only the roots depend on the root stack. -/
theorem reroot (S : Stocked narrow ps c) (ha : c'.arena = c.arena) (hc : c'.cursor = c.cursor) (hp : c'.phase = c.phase)
    (hr : ∀ r ∈ c'.roots.toList, c.arena.Whole ps c.cursor.top r.addr) : Stocked narrow ps c' := by
  refine ⟨?_, hp.trans S.idle, ?_, ?_, ?_⟩
  · unfold Collector.WellFormed
    rw [hc, ha]
    exact S.wellFormed
  · rw [hc, ha]
    exact S.parcelled
  · rw [hc, ha]
    exact hr
  · rw [ha]
    exact S.single

theorem truncated (S : Stocked narrow ps c) (n : Nat) : Stocked narrow ps { c with roots := c.roots.truncate n } :=
  S.reroot rfl rfl rfl fun r hr => S.rooted r (List.mem_of_mem_take (RootStack.toList_truncate _ _ ▸ hr))

theorem reparcel (S : Stocked narrow ps c) (P : c'.arena.Parcelled ps c'.cursor.top)
    (hl : c'.arena.layout = c.arena.layout) (ha : c'.arena.active = c.arena.active) (ht : c.cursor.top ≤ c'.cursor.top)
    (hcap : c'.cursor.capacity = c.cursor.capacity) (hp : c'.phase = c.phase) (hr : c'.roots = c.roots) :
    Stocked narrow ps c' := by
  refine ⟨S.wellFormed.of_shape (Prod.ext hl hcap), hp.trans S.idle, P, ?_, ?_⟩
  · intro r hmem
    rw [hr] at hmem
    exact (S.rooted r hmem).congr hl ha subset_rfl ht
  · intro p hp' hh
    obtain ⟨r, hmem, haddr⟩ := S.single p hp' hh
    refine ⟨r, hmem, haddr.trans ?_⟩
    unfold Arena.address
    rw [hl, ha]

/-! ## References -/

/-- What is accepted at a parcel has room for its header. -/
theorem whole (S : Stocked narrow ps c) (hg : c.arena.Given ps r.addr) {found : Location × Header}
    (hc : c.checkObject r = .ok found) : c.arena.Whole ps c.cursor.top r.addr := by
  obtain ⟨p, hp, hw⟩ := hg
  obtain ⟨o, _, x, hend⟩ := Collector.checkObject_eq_ok_iff.mp hc
  obtain rfl := S.parcelled.offset_eq hp (hw ▸ x)
  exact ⟨p, hp, hw, (Nat.add_le_add_left (Header.headerWords_le_size _) _).trans hend⟩

/-- Where a slot is found it is one of a record. -/
theorem slot (S : Stocked narrow ps c) (hg : c.arena.Given ps r.addr) {o i : Nat} {h : Header}
    (x : c.arena.ObjectAt c.cursor.top r.addr o h) (hend : o + h.size ≤ c.cursor.top) (hi : i < h.slotCount) :
    ∃ p ∈ ps, p.offset = o ∧ p.header = some h := by
  obtain ⟨p, hp, hw⟩ := hg
  obtain rfl := S.parcelled.offset_eq hp (hw ▸ x)
  have hroom := (Nat.add_le_add_left h.headerWords_le_size p.offset).trans hend
  obtain ⟨h', x', hrec⟩ := S.parcelled.objectAt hp hroom
  obtain ⟨_, rfl⟩ := x.agree x.located x'.header
  rcases hrec with hrec | ⟨_, hnone⟩
  · exact ⟨p, hp, rfl, hrec⟩
  · rw [hnone] at hi
    exact absurd hi (Nat.not_lt_zero i)

theorem given_of_held (S : Stocked narrow ps c) {known : Set Ref} (hk : ∀ r ∈ known, c.arena.Given ps r.addr)
    (h : Held c known r) : c.arena.Given ps r.addr := by
  induction h with
  | known hr => exact hk _ hr
  | root hr => exact (S.rooted _ hr).given
  | @slot v r k _ hget ih =>
    obtain ⟨o, h, x, hend, hi, hslot⟩ := Collector.exists_of_vectorGet hget
    obtain ⟨p, hp, rfl, hh⟩ := S.slot ih x hend hi
    rw [← hslot]
    exact ((S.parcelled.slots p hp h hh k hi).resolve_left (hslot ▸ r.ne_zero)).given

/-! ## Passes -/

/-- A pass over all roots leaves records only. -/
theorem swept (S : Stocked narrow ps s.collector) {reason : Reason} {p : Pass}
    (hp : (s.collector.relocateLive s.collector.roots.top).2 = .ok () p)
    (hs : Swept s s.collector.roots.top reason p s') : ∃ ps', ∀ narrow', Stocked narrow' ps' s'.collector := by
  obtain ⟨hw, _, f, rs, C, hroots⟩ := hs.copied_all S.wellFormed hp
  refine ⟨Arena.parcels rs, fun narrow' => ⟨hw, hs.phase, C.normal.parcelled, ?_, ?_⟩⟩
  · intro r hr
    have hin := List.mem_map_of_mem (f := Ref.addr) hr
    rw [hroots] at hin
    obtain ⟨r', hr', he⟩ := List.mem_map.mp hin
    rw [← he]
    exact C.normal.whole (C.bijective.mapsTo (.root hr'))
  · intro q hq hh
    obtain ⟨e, _, rfl⟩ := hq
    cases hh

theorem cleared {m : Session} {n : Nat} {xs : List CycleSummary} (S : Stocked narrow ps s.collector) (C : s.Cleared n xs m) :
    ∃ ps', Stocked (unlessPassed s.collector m.collector narrow) ps' m.collector ∧
      Carries ps s.collector ps' m.collector := by
  cases C with
  | fits _ => exact ⟨ps, S.mono fun r hr => ⟨rfl, hr⟩, .refl⟩
  | swept _ hrun =>
    have S₁ : Stocked narrow ps (s.triggered n).collector := S.reroot rfl rfl rfl S.rooted
    obtain ⟨p, hp, hs, _⟩ := Mutator.runCycle_ok hrun
    obtain ⟨ps', S'⟩ := S₁.swept hp hs
    exact ⟨ps', S' _, fun h => absurd (hs.cycles.symm.trans h) (Nat.succ_ne_self _)⟩

/-! ## One more parcel -/

theorem extended (S : Stocked narrow ps c) {ws : List Word} (x : Extended c c' ws) : Stocked narrow ps c' := by
  have hle : c.cursor.top ≤ c'.cursor.top := x.top ▸ Nat.le_add_right ..
  have hfits : c'.cursor.top ≤ c.arena.spaceWords := x.top ▸ S.wellFormed ▸ x.fits
  refine S.reparcel (S.parcelled.congr x.stored.layout x.stored.active hle hfits fun p hp j hj => Or.inl ?_)
    x.stored.layout x.stored.active hle x.capacity x.phase x.roots
  have hend := S.parcelled.end_le p hp
  exact x.word_old (o := p.offset + j) (by omega) (by omega)

theorem add (S : Stocked narrow ps c) {ws : List Word} (x : Extended c c' ws) (hn : narrow ⊆ narrow')
    (ho : q.offset = c.cursor.top) (hlen : q.words ≤ ws.length)
    (hrecord : ∀ h, q.header = some h → c'.arena.headerAt ⟨c'.arena.active, q.offset⟩ = some h)
    (hsingle : q.header = none → c'.arena.word ⟨c'.arena.active, q.offset⟩ = 0 ∧
      ∃ r ∈ narrow', r.addr = c'.arena.address ⟨c'.arena.active, q.offset⟩)
    (hslots : ∀ h, q.header = some h → ∀ i < h.slotCount, c'.arena.slotAt ⟨c'.arena.active, q.offset⟩ i = 0 ∨
      c'.arena.Whole ps c'.cursor.top (c'.arena.slotAt ⟨c'.arena.active, q.offset⟩ i)) :
    Stocked narrow' (insert q ps) c' := by
  have S' := (S.extended x).mono hn
  have hend : q.offset + q.words ≤ c'.cursor.top := by
    rw [x.top, ho]
    exact Nat.add_le_add_left hlen _
  refine ⟨S'.wellFormed, S'.idle, ?_, ?_, ?_⟩
  · exact S'.parcelled.insert (fun p hp => ho ▸ S.parcelled.end_le p hp) hend hrecord (fun h => (hsingle h).1) hslots
  · intro r hr
    exact (S'.rooted r hr).congr rfl rfl (Set.subset_insert q ps) (Nat.le_refl _)
  · intro p hp hh
    rcases hp with rfl | hp
    · exact (hsingle hh).2
    · exact S'.single p hp hh

/-- The words of an object are a record more. -/
theorem record (S : Stocked narrow ps c) {y : Content Ref} (x : Extended c c' y.words)
    (hy : ∀ r', some r' ∈ y.slots → c.arena.Whole ps c.cursor.top r'.addr) :
    Stocked narrow (insert ⟨c.cursor.top, some y.header⟩ ps) c' := by
  have hlen := Content.length_words y
  have hroom : c.cursor.top + y.words.length ≤ c.arena.spaceWords := S.wellFormed ▸ x.fits
  have hspace : c.arena.spaceWords < UInt64.size := c.arena.layout.spaceWords_lt
  have hcount : y.header.slotCount = y.slots.length := Content.slotCount_header (by omega)
  have hnew : c'.arena.Holds c.cursor.top y := x.holds_new hcount
  have hsize : Parcel.words ⟨c.cursor.top, some y.header⟩ ≤ y.words.length := by
    rw [hlen, ← hcount, ← Header.size_eq]
    exact Nat.le_refl _
  refine S.add x subset_rfl rfl hsize ?_ (fun h => absurd h (Option.some_ne_none _)) ?_
  · intro h hh
    obtain rfl := Option.some.inj hh
    exact hnew.header
  · intro h hh i hi
    obtain rfl := Option.some.inj hh
    rw [hcount] at hi
    rw [hnew.slot i hi]
    cases ho : y.slots[i] with
    | none => exact Or.inl rfl
    | some r' =>
      refine Or.inr ((hy r' (ho ▸ List.getElem_mem hi)).congr x.stored.layout x.stored.active subset_rfl ?_)
      rw [x.top]
      exact Nat.le_add_right ..

end Stocked

theorem Carries.extended {ps ps' qs : Set Parcel} {c c' c'' : Collector} {ws : List Word} (h : Carries ps c ps' c')
    (x : Extended c' c'' ws) (hs : ps' ⊆ qs) : Carries ps c qs c'' :=
  fun hc w hw => (h (x.cycles ▸ hc) w hw).congr x.stored.layout x.stored.active hs

theorem Extended.given {ps : Set Parcel} {c c' : Collector} {ws : List Word} {r : Ref} {header : Option Header}
    (x : Extended c c' ws) (hr : r.addr = c.arena.address ⟨c.arena.active, c.cursor.top⟩) :
    c'.arena.Given (insert ⟨c.cursor.top, header⟩ ps) r.addr :=
  ⟨⟨c.cursor.top, header⟩, Or.inl rfl, by rw [x.address, hr]⟩

theorem unlessPassed_congr {c c' c'' : Collector} {rs : Set Ref} (h : c''.cycles = c'.cycles) :
    unlessPassed c c'' rs = unlessPassed c c' rs := by
  unfold unlessPassed
  rw [h]

/-! ## Objects -/

/-- How the allocation of an object ends in a parcelled collector. -/
inductive Allocated (narrow : Set Ref) (ps : Set Parcel) (s : Session) : EStateM.Result Error Session Ref → Prop
  | given {r : Ref} {s' : Session} {ps' : Set Parcel} : Stocked (unlessPassed s.collector s'.collector narrow) ps' s'.collector →
      Carries ps s.collector ps' s'.collector → s'.collector.arena.Given ps' r.addr → Allocated narrow ps s (.ok r s')
  | refused {e : Error} {s' : Session} {ps' : Set Parcel} :
      Stocked (unlessPassed s.collector s'.collector narrow) ps' s'.collector →
      Carries ps s.collector ps' s'.collector → Allocated narrow ps s (.error e s')
  | failed {e : Error} {s' : Session} : s'.collector.phase = .poisoned → Allocated narrow ps s (.error e s')

theorem Stocked.obtains {narrow : Set Ref} {ps ps' : Set Parcel} {s m : Session} {y : Content Ref}
    {out : EStateM.Result Error Session Ref} (S : Stocked (unlessPassed s.collector m.collector narrow) ps' m.collector)
    (hm : Carries ps s.collector ps' m.collector)
    (hy : ∀ r, some r ∈ y.slots → m.collector.arena.Whole ps' m.collector.cursor.top r.addr) (ho : Obtains m y.words out) :
    Allocated narrow ps s out := by
  cases ho with
  | placed P =>
    have x := P.extended
    exact .given (unlessPassed_congr x.cycles ▸ S.record x hy) (hm.extended x (Set.subset_insert _ _)) (x.given P.address)
  | denied _ hc _ => exact .refused (hc ▸ S) (hc ▸ hm)

namespace Stocked

variable {narrow : Set Ref} {ps : Set Parcel} {s : Session} (S : Stocked narrow ps s.collector)
include S

theorem allocScalar (y : Content Ref) (hy : y.slots = []) :
    Allocated narrow ps s ((Mutator.allocScalar y.tag y.second).run s) := by
  have hwords : y.words = [y.tag.word, y.second] := by simp [Content.words, hy]
  rcases Session.Cleared.exists_or s headerWords with ⟨xs, m, C⟩ | ⟨hf, e, p, hr⟩
  · obtain ⟨ps', S', hm⟩ := S.cleared C
    have ho := Mutator.obtains_allocScalar C S.wellFormed S.usable y.tag y.second
    rw [← hwords] at ho
    exact S'.obtains hm (by rw [hy]; exact fun r h => absurd h List.not_mem_nil) ho
  · obtain ⟨s', hrun, hw⟩ := (Mutator.passed_allocScalar S.usable y.tag y.second hf).run_error hr
    rw [hrun]
    exact .failed hw.phase

theorem buildVector (base : Nat) (elements : List (Option Ref)) :
    Allocated narrow ps s ((Mutator.buildVector base elements).run s) := by
  rcases Session.Cleared.exists_or s (Header.vectorWords elements.length) with ⟨xs, m, C⟩ | ⟨hf, e, p, hr⟩
  · obtain ⟨ps', S', hm⟩ := S.cleared C
    -- the elements come from the root stack, to which the pass was applied, and leave it again
    obtain ⟨_, hmem⟩ := Mutator.run_mapM_takeNext_mem elements (m.collector.roots.toList.drop base)
    have S₁ : Stocked (unlessPassed s.collector m.collector narrow) ps' (m.truncated base).collector := S'.truncated base
    have hy : ∀ r, some r ∈ (Content.vector (Mutator.refill elements (m.collector.roots.toList.drop base))).slots →
        m.collector.arena.Whole ps' m.collector.cursor.top r.addr :=
      fun r hr => S'.rooted r (List.mem_of_mem_drop (hmem r hr))
    exact Stocked.obtains (m := m.truncated base) S₁ hm hy (Mutator.obtains_buildVector C S.wellFormed S.usable base)
  · obtain ⟨s', hrun, hw⟩ := (Mutator.passed_buildVector S.usable base hf).run_error hr
    rw [hrun]
    exact .failed hw.phase

end Stocked

end Semispace

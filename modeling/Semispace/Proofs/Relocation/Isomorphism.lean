import Semispace.Proofs.Relocation.Complete

/-!
# Passes over isomorphic heaps

Two heaps are isomorphic when what their roots reach corresponds, object by object and slot by slot,
wherever the objects lie and whatever else is in memory. A pass meets corresponding objects in the
same order, and so it moves them to the same places.
-/

namespace Semispace

/-- `f` takes what `roots` reach in `a` to what `roots'` reach in `b`: roots to roots in order, and
objects one to one to objects with the same header whose slots correspond. -/
structure Isomorphism (a b : Arena) (top top' : Nat) (roots roots' : List Ref) (f : Word → Word) : Prop where
  rooted : roots'.map Ref.addr = (roots.map Ref.addr).map f
  zero : f 0 = 0
  injective : Set.InjOn f {w | a.Reach roots w}
  object : ∀ w, a.Reach roots w → ∃ o o' h, a.ObjectAt top w o h ∧ b.ObjectAt top' (f w) o' h ∧
    ∀ i < h.slotCount, b.slotAt ⟨b.active, o'⟩ i = f (a.slotAt ⟨a.active, o⟩ i)

/-- A completed pass leaves an isomorphic heap. -/
theorem Copied.isomorphism {a b : Arena} {top top' : Nat} {roots roots' : List Ref} {f : Word → Word}
    {rs : List (Nat × Header)} (C : Copied a b top top' roots f rs)
    (hr : roots'.map Ref.addr = (roots.map Ref.addr).map f) : Isomorphism a b top top' roots roots' f := by
  refine ⟨hr, C.zero, C.bijective.injOn, fun w hw => ?_⟩
  obtain ⟨o, o', h, x, he, hf, _, hslot⟩ := C.object w hw
  have y : b.ObjectAt top' (f w) o' h := by
    rw [hf]
    exact C.tiled.objectAt (e := (o', h)) C.top_le he
  exact ⟨o, o', h, x, y, hslot⟩

namespace Isomorphism

variable {a b : Arena} {top top' : Nat} {roots roots' : List Ref} {f : Word → Word}
variable (iso : Isomorphism a b top top' roots roots' f)
include iso

theorem ne_zero {w : Word} (hw : a.Reach roots w) : f w ≠ 0 := by
  obtain ⟨_, _, _, _, y, _⟩ := iso.object w hw
  exact y.ne_zero

theorem reach {w : Word} (hw : a.Reach roots w) : b.Reach roots' (f w) := by
  induction hw with
  | @root r hr =>
    have hmem : f r.addr ∈ roots'.map Ref.addr := by
      rw [iso.rooted]
      exact List.mem_map_of_mem (List.mem_map_of_mem hr)
    obtain ⟨r', hr', he⟩ := List.mem_map.mp hmem
    exact he ▸ .root hr'
  | @slot w o h i hw hl hh hi hz ih =>
    obtain ⟨o₁, o', h₁, x, y, hslot⟩ := iso.object w hw
    obtain ⟨rfl, rfl⟩ := x.agree hl hh
    rw [← hslot i hi]
    refine .slot ih y.located y.header hi ?_
    rw [hslot i hi]
    exact iso.ne_zero (.slot hw hl hh hi hz)

theorem exists_of_reach {v : Word} (hv : b.Reach roots' v) : ∃ w, a.Reach roots w ∧ f w = v := by
  induction hv with
  | @root r hr =>
    have hmem : r.addr ∈ roots'.map Ref.addr := List.mem_map_of_mem hr
    rw [iso.rooted] at hmem
    obtain ⟨w, hw, he⟩ := List.mem_map.mp hmem
    obtain ⟨r', hr', rfl⟩ := List.mem_map.mp hw
    exact ⟨r'.addr, .root hr', he⟩
  | @slot v o h i _ hl hh hi hz ih =>
    obtain ⟨w, hw, rfl⟩ := ih
    obtain ⟨o₁, o', h₁, x, y, hslot⟩ := iso.object w hw
    obtain ⟨rfl, rfl⟩ := y.agree hl hh
    rw [hslot i hi] at hz ⊢
    have hz' : a.slotAt ⟨a.active, o₁⟩ i ≠ 0 := fun h0 => hz (by rw [h0, iso.zero])
    exact ⟨_, .slot hw x.located x.header hi hz', rfl⟩

theorem bijOn : Set.BijOn f {w | a.Reach roots w} {v | b.Reach roots' v} :=
  ⟨fun _ hw => iso.reach hw, iso.injective, fun _ hv => iso.exists_of_reach hv⟩

theorem sizeAt {w : Word} (hw : a.Reach roots w) : b.sizeAt (f w) = a.sizeAt w := by
  obtain ⟨_, _, _, x, y, _⟩ := iso.object w hw
  rw [x.sizeAt, y.sizeAt]

theorem sum_sizes {ws : List Word} (hw : ∀ w ∈ ws, a.Reach roots w) :
    ((ws.map f).map b.sizeAt).sum = (ws.map a.sizeAt).sum := by
  rw [List.map_map]
  refine congrArg List.sum (List.map_congr_left fun w h => ?_)
  exact iso.sizeAt (hw w h)

/-- Words that are reached in the second heap are the images of words reached in the first. -/
theorem exists_sources : ∀ {vs : List Word}, (∀ v ∈ vs, b.Reach roots' v) →
    ∃ ws : List Word, ws.map f = vs ∧ ∀ w ∈ ws, a.Reach roots w
  | [], _ => ⟨[], rfl, nofun⟩
  | v :: vs, hv => by
    obtain ⟨w, hw, hwv⟩ := iso.exists_of_reach (hv v (List.mem_cons_self ..))
    obtain ⟨ws, hws, hr⟩ := exists_sources fun v' hv' => hv v' (List.mem_cons_of_mem _ hv')
    refine ⟨w :: ws, by rw [List.map_cons, hwv, hws], fun w' hw' => ?_⟩
    rcases List.mem_cons.mp hw' with rfl | hw'
    · exact hw
    · exact hr w' hw'

theorem fits_iff (hspace : b.spaceWords = a.spaceWords) : Fits a top roots ↔ Fits b top' roots' := by
  constructor
  · intro F
    refine ⟨fun v hv => ?_, fun vs hn hr => ?_⟩
    · obtain ⟨w, hw, rfl⟩ := iso.exists_of_reach hv
      obtain ⟨_, o', h, _, y, _⟩ := iso.object w hw
      exact ⟨o', h, y⟩
    · obtain ⟨ws, rfl, hw⟩ := iso.exists_sources hr
      rw [iso.sum_sizes hw, hspace]
      exact F.room ws (List.Nodup.of_map f hn) hw
  · intro F
    refine ⟨fun w hw => ?_, fun ws hn hw => ?_⟩
    · obtain ⟨o, _, h, x, _⟩ := iso.object w hw
      exact ⟨o, h, x⟩
    · rw [← iso.sum_sizes hw, ← hspace]
      refine F.room _ (hn.map_on fun w h w' h' he => iso.injective (hw w h) (hw w' h') he) fun v hv => ?_
      obtain ⟨w, hmem, rfl⟩ := List.mem_map.mp hv
      exact iso.reach (hw w hmem)

theorem slotsOf {w : Word} (hw : a.Reach roots w) : b.slotsOf (f w) = (a.slotsOf w).map f ∧
    ∀ v ∈ a.slotsOf w, v ≠ 0 → a.Reach roots v := by
  obtain ⟨o, o', h, x, y, hslot⟩ := iso.object w hw
  rw [x.slotsOf, y.slotsOf, List.map_map]
  constructor
  · exact List.map_congr_left fun i hi => hslot i (List.mem_range.mp hi)
  · intro v hv hz
    obtain ⟨i, hi, rfl⟩ := List.mem_map.mp hv
    exact .slot hw x.located x.header (List.mem_range.mp hi) hz

/-- What is reached is met in corresponding orders. -/
theorem meetsAll {found : List Word} (h : a.MeetsAll roots found) : b.MeetsAll roots' (found.map f) := by
  have hroot : ∀ w ∈ roots.map Ref.addr, a.Reach roots w := by
    intro w hw
    obtain ⟨r, hr, rfl⟩ := List.mem_map.mp hw
    exact .root hr
  have hfirst : fresh [] (roots'.map Ref.addr) = (fresh [] (roots.map Ref.addr)).map f := by
    rw [iso.rooted]
    have hnone : ∀ w ∈ ([] : List Word), a.Reach roots w := nofun
    exact fresh_map iso.injective iso.zero (fun w hw => iso.ne_zero hw) hnone fun w hw _ => hroot w hw
  have hin : ∀ w ∈ fresh [] (roots.map Ref.addr), a.Reach roots w := fun w hw => hroot w (mem_fresh hw).1
  unfold Arena.MeetsAll
  rw [hfirst]
  exact h.map iso.injective iso.zero (fun w hw => iso.ne_zero hw) (fun w hw => iso.slotsOf hw) hin hin

end Isomorphism

/-- The second object is the image of the first, and both were moved to the same place. -/
structure Moved.Matches (f : Word → Word) (m m' : Moved) : Prop where
  old : m'.old = f m.old
  header : m'.header = m.header
  target : m'.target = m.target

/-- Corresponding objects that are moved in the same order are moved to the same places. -/
theorem Moved.forall₂_matches {f : Word → Word} {k k' : Nat} : ∀ {ms ms' : List Moved} {i : Nat},
    Consecutive i (ms.map Moved.block) k → Consecutive i (ms'.map Moved.block) k' →
    ms'.map Moved.old = (ms.map Moved.old).map f →
    (∀ m ∈ ms, ∀ m' ∈ ms', m'.old = f m.old → m'.header = m.header) →
    List.Forall₂ (Matches f) ms ms' ∧ k' = k
  | [], [], i, h, h', _, _ => ⟨.nil, h'.symm.trans h⟩
  | [], _ :: _, _, _, _, ho, _ => by cases ho
  | _ :: _, [], _, _, _, ho, _ => by cases ho
  | m :: ms, m' :: ms', i, h, h', ho, hh => by
    obtain ⟨hold, hrest⟩ := List.cons.inj ho
    have hhead := hh m (List.mem_cons_self ..) m' (List.mem_cons_self ..) hold
    have hnext : Consecutive (i + m.header.size) (ms'.map Moved.block) k' := hhead ▸ h'.2
    obtain ⟨hall, hk⟩ := forall₂_matches h.2 hnext hrest fun n hn n' hn' =>
      hh n (List.mem_cons_of_mem _ hn) n' (List.mem_cons_of_mem _ hn')
    exact ⟨.cons ⟨hold, hhead, h'.1.trans h.1.symm⟩ hall, hk⟩

section
variable {f : Word → Word} {ms ms' : List Moved}

theorem Moved.blocks_eq (h : List.Forall₂ (Moved.Matches f) ms ms') : ms'.map Moved.block = ms.map Moved.block := by
  induction h with
  | nil => rfl
  | cons hm _ ih => rw [List.map_cons, List.map_cons, ih, Moved.block, hm.target, hm.header]; rfl

theorem Moved.exists_match (h : List.Forall₂ (Moved.Matches f) ms ms') {m : Moved} (hm : m ∈ ms) :
    ∃ m' ∈ ms', m.Matches f m' := by
  induction h with
  | nil => cases hm
  | cons hfirst _ ih =>
    cases hm with
    | head => exact ⟨_, List.mem_cons_self .., hfirst⟩
    | tail _ hm =>
      obtain ⟨m', hm', hx⟩ := ih hm
      exact ⟨m', List.mem_cons_of_mem _ hm', hx⟩

end

/-- Completed passes over isomorphic heaps move corresponding objects to the same places. -/
theorem Isomorphism.matches {a b : Arena} {top top' σ σ' : Nat} {roots roots' : List Ref} {f : Word → Word}
    {ms ms' : List Moved} {p q : Pass} (iso : Isomorphism a b top top' roots roots' f)
    (I : Pass.Invariant a top roots ms σ p) (J : Pass.Invariant b top' roots' ms' σ' q)
    (h : a.MeetsAll roots (ms.map Moved.old)) (h' : b.MeetsAll roots' (ms'.map Moved.old)) :
    List.Forall₂ (Moved.Matches f) ms ms' ∧ q.cursor.top = p.cursor.top := by
  refine Moved.forall₂_matches I.blocks J.blocks (h'.unique (iso.meetsAll h)) ?_
  intro m hm m' hm' hold
  obtain ⟨_, _, _, x, y, _⟩ := iso.object m.old (I.reached m hm)
  have hx := (I.objects m hm).unique x
  have hy := (J.objects m' hm').unique (hold ▸ y)
  exact hy.2.trans hx.2.symm

end Semispace

import Mathlib.Data.List.Forall2
import Mathlib.Data.List.Nodup
import Semispace.Proofs.Heap.Traversal
import Semispace.Proofs.Relocation.Word

/-!
# The invariant of a pass

Part-way through a pass the destination holds the copies of the objects met so far, one after
another. Their slots are forwarded up to the scan pointer `σ` and hold the words from before the
pass from there on; the source is as it was. Objects are met in breadth-first order (`Met`). `Outcome` says
that an operation keeps this, and that it fails only where what is reached does not fit the heap.
-/

namespace Semispace

/-- An object that a pass has moved, from an offset of the source to one of the destination. -/
structure Moved where
  old : Word
  source : Nat
  header : Header
  target : Nat

def Moved.block (m : Moved) : Nat × Header := (m.target, m.header)

def Moved.copy (a : Arena) (m : Moved) : Copy :=
  ⟨m.header.tag, m.header.size, m.old, a.address ⟨a.inactive, m.target⟩⟩

/-- The new word for an old one: zero stays, and a moved object is referred to by its new address. -/
def Forwards (a : Arena) (ms : List Moved) (w w' : Word) : Prop :=
  (w = 0 ∧ w' = 0) ∨ ∃ m ∈ ms, m.old = w ∧ w' = a.address ⟨a.inactive, m.target⟩

theorem Forwards.mono {a : Arena} {ms ms' : List Moved} {w w' : Word} (h : Forwards a ms w w') (hs : ms <+: ms') :
    Forwards a ms' w w' := by
  rcases h with h | ⟨m, hm, h⟩
  · exact Or.inl h
  · exact Or.inr ⟨m, hs.subset hm, h⟩

/-- From `ms` on, the objects met first in the words `ws` were moved, in that order. -/
def Met (ms : List Moved) (ws : List Word) (ms' : List Moved) : Prop :=
  ms'.map Moved.old = ms.map Moved.old ++ fresh (ms.map Moved.old) ws

namespace Met

variable {ms ms' ms'' : List Moved} {ws vs : List Word}

theorem nil : Met ms [] ms := (List.append_nil _).symm

theorem append (h : Met ms ws ms') (h' : Met ms' vs ms'') : Met ms (ws ++ vs) ms'' := by
  unfold Met at *
  rw [h', h, fresh_append, List.append_assoc]

theorem zero : Met ms [0] ms := by simp [Met, fresh]

theorem of_mem {m : Moved} (h : m ∈ ms) : Met ms [m.old] ms := by
  simp [Met, fresh, List.mem_map_of_mem (f := Moved.old) h]

theorem snoc {m : Moved} (h0 : m.old ≠ 0) (h : ∀ m' ∈ ms, m'.old ≠ m.old) : Met ms [m.old] (ms ++ [m]) := by
  have hn : ¬(m.old = 0 ∨ m.old ∈ ms.map Moved.old) := by simpa [h0] using h
  simp only [Met, fresh, if_neg hn, List.map_append, List.map_singleton]

end Met

/-- The size of the object at an address. -/
def Arena.sizeAt (a : Arena) (w : Word) : Nat :=
  (((a.locate w).bind a.headerAt).map Header.size).getD 0

theorem Arena.ObjectAt.sizeAt {a : Arena} {top o : Nat} {w : Word} {h : Header} (x : a.ObjectAt top w o h) :
    a.sizeAt w = h.size := by
  simp [Arena.sizeAt, x.located, x.header]

/-- What the roots reach are objects, and a half has room for all of them. -/
structure Fits (a : Arena) (top : Nat) (roots : List Ref) : Prop where
  objects : ∀ w, a.Reach roots w → ∃ o h, a.ObjectAt top w o h
  room : ∀ ws : List Word, ws.Nodup → (∀ w ∈ ws, a.Reach roots w) → (ws.map a.sizeAt).sum ≤ a.spaceWords

/-- Why a pass cannot end: a word that is reached is no object, or the objects reached do not all fit. -/
inductive Misfit (a : Arena) (top : Nat) (roots : List Ref) : Error → Prop
  | noObject {w : Word} {e : Error} : a.Reach roots w → (∀ o h, ¬ a.ObjectAt top w o h) → Misfit a top roots e
  | noRoom {ws : List Word} {w : Word} {n k : Nat} : ws.Nodup → (∀ w ∈ ws, a.Reach roots w) →
      a.spaceWords < (ws.map a.sizeAt).sum → Misfit a top roots (.internal (.destinationExhausted w n k))

theorem Misfit.not_fits {a : Arena} {top : Nat} {roots : List Ref} {e : Error} (h : Misfit a top roots e) :
    ¬ Fits a top roots := by
  intro F
  cases h with
  | noObject hw hn =>
    obtain ⟨o, h, x⟩ := F.objects _ hw
    exact hn o h x
  | noRoom hn hr hlt => exact Nat.not_le.mpr hlt (F.room _ hn hr)

namespace Pass

/-- A pass that has moved `ms` and scanned the destination up to `σ`. -/
structure Invariant (a : Arena) (top : Nat) (roots : List Ref) (ms : List Moved) (σ : Nat) (p : Pass) : Prop where
  layout : p.arena.layout = a.layout
  active : p.arena.active = a.active
  opened : p.arena.inactiveOpen = true
  sourceTop : p.sourceTop = top
  capacity : p.cursor.capacity = a.spaceWords
  source : ∀ i < a.spaceWords, p.arena.word ⟨a.active, i⟩ = a.word ⟨a.active, i⟩
  table : p.table.toList = ms.map fun m => (m.old, a.address ⟨a.inactive, m.target⟩)
  noted : p.copier.copies.toList = ms.map (Moved.copy a)
  nodup : (ms.map Moved.old).Nodup
  objects : ∀ m ∈ ms, a.ObjectAt top m.old m.source m.header
  reached : ∀ m ∈ ms, a.Reach roots m.old
  blocks : Consecutive 0 (ms.map Moved.block) p.cursor.top
  scan_le : σ ≤ p.cursor.top
  kept : ∀ m ∈ ms, ∀ j < m.header.size, j < headerWords ∨ σ ≤ m.target + j →
    p.arena.word ⟨a.inactive, m.target + j⟩ = a.word ⟨a.active, m.source + j⟩
  forwarded : ∀ m ∈ ms, ∀ j < m.header.size, headerWords ≤ j → m.target + j < σ →
    Forwards a ms (a.word ⟨a.active, m.source + j⟩) (p.arena.word ⟨a.inactive, m.target + j⟩)

/-- How an operation of a pass ends: it has moved more and answers as `Q` says, or what the roots
reach does not fit. -/
inductive Outcome (a : Arena) (top : Nat) (roots : List Ref) (ms : List Moved) {α : Type}
    (Q : α → List Moved → Nat → Pass → Prop) : EStateM.Result Error Pass α → Prop
  | ok {x : α} {ms' : List Moved} {σ : Nat} {p : Pass} : ms <+: ms' → Invariant a top roots ms' σ p → Q x ms' σ p →
      Outcome a top roots ms Q (.ok x p)
  | error {e : Error} {ms' : List Moved} {σ : Nat} {p : Pass} : ms <+: ms' → Invariant a top roots ms' σ p →
      Misfit a top roots e → Outcome a top roots ms Q (.error e p)

variable {a : Arena} {top σ : Nat} {roots : List Ref} {ms : List Moved} {p : Pass}

theorem Outcome.imp {α : Type} {Q Q' : α → List Moved → Nat → Pass → Prop} {ms' : List Moved}
    {r : EStateM.Result Error Pass α} (h : Outcome a top roots ms' Q r) (hs : ms <+: ms')
    (hq : ∀ x ms'' σ' p', ms' <+: ms'' → Q x ms'' σ' p' → Q' x ms'' σ' p') : Outcome a top roots ms Q' r := by
  cases h with
  | ok hs' hi hq' => exact .ok (hs.trans hs') hi (hq _ _ _ _ hs' hq')
  | error hs' hi hn => exact .error (hs.trans hs') hi hn

theorem Outcome.bind {α β : Type} {x : PassM α} {f : α → PassM β} {Q : α → List Moved → Nat → Pass → Prop}
    {Q' : β → List Moved → Nat → Pass → Prop} (hx : Outcome a top roots ms Q (x.run p))
    (hf : ∀ y p' ms' σ', ms <+: ms' → Invariant a top roots ms' σ' p' → Q y ms' σ' p' →
      Outcome a top roots ms' Q' ((f y).run p')) :
    Outcome a top roots ms Q' ((x >>= f).run p) := by
  cases hr : x.run p with
  | error e p' =>
    rw [hr] at hx
    rw [run_bind_error hr]
    cases hx with
    | error hs hi hn => exact .error hs hi hn
  | ok y p' =>
    rw [hr] at hx
    rw [run_bind_ok hr]
    cases hx with
    | ok hs hi hq => exact (hf y p' _ _ hs hi hq).imp hs fun _ _ _ _ _ h => h

namespace Invariant

variable (I : Invariant a top roots ms σ p)
include I

theorem spaceWords : p.arena.spaceWords = a.spaceWords := by
  unfold Arena.spaceWords; rw [I.layout]

theorem destination : p.destination = a.inactive := by
  unfold Pass.destination Arena.inactive; rw [I.active]

theorem address (loc : Location) : p.arena.address loc = a.address loc := by
  unfold Arena.address; rw [I.layout]

theorem locate (w : Word) : p.arena.locate w = a.locate w := by
  unfold Arena.locate; rw [I.layout]

theorem isOpen (h : Half) : p.arena.isOpen h = true := by
  simp [Arena.isOpen, Arena.isClosed, I.opened]

theorem top_le : p.cursor.top ≤ a.spaceWords := I.capacity ▸ p.cursor.top_le

theorem copies : p.copier.copies.size = ms.length := by
  rw [← Array.length_toList, I.noted, List.length_map]

/-- A moved object lies below the cursor of the destination. -/
theorem end_le {m : Moved} (hm : m ∈ ms) : m.target + m.header.size ≤ p.cursor.top :=
  (I.blocks.bounds (List.mem_map_of_mem hm)).2

theorem target_lt {m : Moved} (hm : m ∈ ms) : m.target < a.layout.spaceWords := by
  have h1 := I.end_le hm
  have h2 : p.cursor.top ≤ a.layout.spaceWords := I.top_le
  have h3 := m.header.size_pos
  omega

theorem eq_of_old {m m' : Moved} (hm : m ∈ ms) (hm' : m' ∈ ms) (h : m.old = m'.old) : m = m' :=
  List.inj_on_of_nodup_map I.nodup hm hm' h

/-- Two moved objects are the same or share no word of the destination. -/
theorem apart {m m' : Moved} (hm : m ∈ ms) (hm' : m' ∈ ms) :
    m = m' ∨ m.target + m.header.size ≤ m'.target ∨ m'.target + m'.header.size ≤ m.target := by
  rcases I.blocks.apart (List.mem_map_of_mem hm) (List.mem_map_of_mem hm') with h | h
  · have hs := I.blocks.nodup_starts
    rw [List.map_map] at hs
    exact Or.inl (List.inj_on_of_nodup_map hs hm hm' (congrArg Prod.fst h))
  · exact Or.inr h

theorem find?_eq_some {m : Moved} (hm : m ∈ ms) :
    p.table.find? m.old = some (a.address ⟨a.inactive, m.target⟩) := by
  rw [ForwardTable.find?_eq, I.table, List.find?_map, Option.map_map]
  cases hf : ms.find? ((fun e => e.1 == m.old) ∘ fun m => (m.old, a.address ⟨a.inactive, m.target⟩)) with
  | none => exact absurd (List.find?_eq_none.mp hf m hm) (by simp)
  | some m' =>
    have ho : m'.old = m.old := by simpa using List.find?_some hf
    have := I.eq_of_old (List.mem_of_find?_eq_some hf) hm ho
    simp [this]

theorem find?_eq_none {w : Word} (h : ∀ m ∈ ms, m.old ≠ w) : p.table.find? w = none := by
  rw [ForwardTable.find?_eq, I.table, List.find?_map]
  have : ms.find? ((fun e => e.1 == w) ∘ fun m => (m.old, a.address ⟨a.inactive, m.target⟩)) = none :=
    List.find?_eq_none.mpr fun m hm => by simpa using h m hm
  rw [this]
  rfl

/-! ## Relocating a word keeps the invariant -/

/-- The pass that has copied one more object to the end of the destination. -/
theorem append {w : Word} {o : Nat} {h : Header} (x : a.ObjectAt top w o h) (hw : a.Reach roots w)
    (hn : ∀ m ∈ ms, m.old ≠ w) {b : Arena} {cursor : Cursor} {t : ForwardTable}
    (hb : p.arena.Stored b ⟨a.inactive, p.cursor.top⟩ (Copier.recordWords p.arena ⟨a.active, o⟩ h.size))
    (hc : cursor.top = p.cursor.top + h.size) (hcap : cursor.capacity = p.cursor.capacity)
    (ht : t.toList = p.table.toList ++ [(w, a.address ⟨a.inactive, p.cursor.top⟩)]) :
    Invariant a top roots (ms ++ [⟨w, o, h, p.cursor.top⟩]) σ
      ⟨⟨b, cursor, p.copier.copies.push ⟨h.tag, h.size, w, a.address ⟨a.inactive, p.cursor.top⟩⟩⟩, t,
        p.sourceTop⟩ := by
  have hlen : (Copier.recordWords p.arena ⟨a.active, o⟩ h.size).length = h.size := by
    simp [Copier.recordWords]
  have hroom : p.cursor.top + h.size ≤ a.spaceWords := by
    rw [← hc, ← I.capacity, ← hcap]; exact cursor.top_le
  have hold : ∀ m ∈ ms, ∀ j < m.header.size,
      b.word ⟨a.inactive, m.target + j⟩ = p.arena.word ⟨a.inactive, m.target + j⟩ := by
    intro m hm j hj
    have h1 := I.end_le hm
    have h2 := I.top_le
    refine hb.outside ⟨a.inactive, m.target + j⟩ (by rw [I.spaceWords]; show m.target + j < _; omega) fun _ => Or.inl ?_
    show m.target + j < p.cursor.top
    omega
  have hnew : ∀ j < h.size, b.word ⟨a.inactive, p.cursor.top + j⟩ = a.word ⟨a.active, o + j⟩ := by
    intro j hj
    have h1 := hb.inside j (hlen.symm ▸ hj)
    have hjl : j < (Copier.recordWords p.arena ⟨a.active, o⟩ h.size).length := hlen.symm ▸ hj
    have h2 : (Copier.recordWords p.arena ⟨a.active, o⟩ h.size)[j] =
        p.arena.word ⟨a.active, o + j⟩ := by simp [Copier.recordWords, Location.add]
    rw [h2, I.source (o + j) (by have := x.inside; omega)] at h1
    exact h1
  have hpre : ms <+: ms ++ [⟨w, o, h, p.cursor.top⟩] := List.prefix_append ..
  refine ⟨hb.layout.trans I.layout, hb.active.trans I.active, hb.inactiveOpen.trans I.opened, I.sourceTop,
    hcap.trans I.capacity, ?source, ?table, ?noted, ?nodup, ?objects, ?reached, ?blocks, ?scan, ?kept, ?forwarded⟩
  case source =>
    intro i hi
    have hne : a.active ≠ a.inactive := Half.ne_other _
    exact (hb.other_half hne (by rw [I.spaceWords]; exact hi)).trans (I.source i hi)
  case table => rw [List.map_append, ← I.table]; exact ht
  case noted =>
    rw [Array.toList_push, I.noted, List.map_append]
    rfl
  case nodup =>
    rw [List.map_append, List.nodup_append]
    refine ⟨I.nodup, List.nodup_singleton _, ?_⟩
    intro y hy z hz
    obtain ⟨m, hm, rfl⟩ := List.mem_map.mp hy
    have hz : z = w := by simpa using hz
    rw [hz]; exact hn m hm
  case objects =>
    intro m hm
    rcases List.mem_append.mp hm with hm | hm
    · exact I.objects m hm
    · rw [List.mem_singleton.mp hm]; exact x
  case reached =>
    intro m hm
    rcases List.mem_append.mp hm with hm | hm
    · exact I.reached m hm
    · rw [List.mem_singleton.mp hm]; exact hw
  case blocks =>
    rw [List.map_append]
    show Consecutive 0 _ cursor.top
    rw [hc]; exact I.blocks.snoc h
  case scan =>
    show σ ≤ cursor.top
    have := I.scan_le; omega
  case kept =>
    intro m hm j hj hσ
    rcases List.mem_append.mp hm with hm | hm
    · exact (hold m hm j hj).trans (I.kept m hm j hj hσ)
    · rw [List.mem_singleton.mp hm] at hj ⊢; exact hnew j hj
  case forwarded =>
    intro m hm j hj hj2 hσ
    rcases List.mem_append.mp hm with hm | hm
    · have hb' : b.word ⟨a.inactive, m.target + j⟩ = _ := hold m hm j hj
      show Forwards a _ _ (b.word ⟨a.inactive, m.target + j⟩)
      rw [hb']
      exact (I.forwarded m hm j hj hj2 hσ).mono hpre
    · rw [List.mem_singleton.mp hm] at hσ
      have := I.scan_le
      simp only at hσ
      omega

/-- A header is read in the source as it was before the pass. -/
theorem read_source_iff {o : Nat} {h : Header} : Header.read p.arena ⟨a.active, o⟩ = .ok h ↔
    a.headerAt ⟨a.active, o⟩ = some h ∧ o + h.size ≤ a.spaceWords := by
  have hs := h.headerWords_le_size
  unfold headerWords at hs
  have hw : o + h.size ≤ a.spaceWords →
      Header.decode (p.arena.word ⟨a.active, o⟩) (p.arena.word (Location.add ⟨a.active, o⟩ 1)) =
        a.headerAt ⟨a.active, o⟩ := by
    intro hle
    unfold Arena.headerAt
    rw [I.source o (by omega)]
    show Header.decode _ (p.arena.word ⟨a.active, o + 1⟩) = _
    rw [I.source (o + 1) (by omega)]
    rfl
  rw [Header.read_eq_ok_iff, I.spaceWords]
  constructor
  · rintro ⟨h1, -, h3⟩; exact ⟨(hw h3).symm.trans h1, h3⟩
  · rintro ⟨h1, h3⟩; exact ⟨(hw h3).trans h1, I.isOpen _, h3⟩

theorem sum_sizes : ((ms.map Moved.old).map a.sizeAt).sum = p.cursor.top := by
  have h1 := I.blocks.end_eq
  rw [List.map_map] at h1 ⊢
  rw [h1, Nat.zero_add]
  congr 1
  apply List.map_congr_left
  intro m hm
  exact (I.objects m hm).sizeAt

/-- The destination is full only if what the roots reach does not fit. -/
theorem misfit_of_full {w v : Word} {n k o : Nat} {h : Header} (x : a.ObjectAt top w o h) (hw : a.Reach roots w)
    (hn : ∀ m ∈ ms, m.old ≠ w) (hf : p.cursor.capacity < p.cursor.top + h.size) :
    Misfit a top roots (.internal (.destinationExhausted v n k)) := by
  have hsum : a.spaceWords < ((w :: ms.map Moved.old).map a.sizeAt).sum := by
    rw [List.map_cons, List.sum_cons, x.sizeAt, I.sum_sizes, ← I.capacity]
    omega
  refine .noRoom ?nodup ?reached hsum
  case nodup =>
    rw [List.nodup_cons]
    refine ⟨?_, I.nodup⟩
    intro hm
    obtain ⟨m, hm, he⟩ := List.mem_map.mp hm
    exact hn m hm he
  case reached =>
    intro y hy
    rcases List.mem_cons.mp hy with rfl | hy
    · exact hw
    · obtain ⟨m, hm, rfl⟩ := List.mem_map.mp hy
      exact I.reached m hm

/-- An object of the source that was not met before is copied, or does not fit. -/
theorem forward_fresh {w : Word} {o : Nat} (hl : a.locate w = some ⟨a.active, o⟩) (ho : o < top)
    (hw : a.Reach roots w) (hn : ∀ m ∈ ms, m.old ≠ w) :
    Outcome a top roots ms (fun w' ms' σ' _ => σ' = σ ∧ Forwards a ms' w w' ∧ Met ms [w] ms')
      ((forward w ⟨a.active, o⟩).run p) := by
  have hfind := I.find?_eq_none hn
  have hd := I.destination
  cases hr : Header.read p.arena ⟨a.active, o⟩ with
  | error e =>
    rw [run_forward_failed hfind (Copier.run_copyObject_unread hr)]
    refine .error (List.prefix_refl ms) I (.noObject hw fun o' h x => ?_)
    have he := hl.symm.trans x.located
    simp only [Option.some.injEq, Location.mk.injEq, true_and] at he
    subst he
    have := I.read_source_iff.mpr ⟨x.header, x.inside⟩
    rw [hr] at this
    cases this
  | ok h =>
    obtain ⟨hh, hin⟩ := I.read_source_iff.mp hr
    have x : a.ObjectAt top w o h := ⟨hl, ho, hh, hin⟩
    by_cases hf : p.cursor.top + h.size ≤ p.cursor.capacity
    · have hne : (⟨a.active, o⟩ : Location).half ≠ p.destination := by rw [hd]; exact Half.ne_other _
      obtain ⟨b, cursor, hrun, hb, hct, hcc⟩ := Copier.run_copyObject hr hne (I.isOpen _)
        (I.capacity.trans I.spaceWords.symm) hf
      have haddr : b.address ⟨p.destination, p.copier.cursor.top⟩ = a.address ⟨a.inactive, p.cursor.top⟩ := by
        rw [hb.address, hd]; exact I.address _
      have hsource : b.address ⟨a.active, o⟩ = w := (hb.address _).trans ((I.address _).trans x.word_eq.symm)
      rw [hsource, haddr] at hrun
      rw [run_forward_copied hfind hrun]
      refine .ok (List.prefix_append ms [⟨w, o, h, p.cursor.top⟩]) (I.append x hw hn (hd ▸ hb) hct hcc ?_)
        ⟨rfl, Or.inr ⟨_, List.mem_append_right _ (List.mem_singleton_self _), rfl, haddr⟩,
          Met.snoc (m := ⟨w, o, h, p.cursor.top⟩) x.ne_zero hn⟩
      rw [ForwardTable.toList_insert]
      exact congrArg (fun z => p.table.toList ++ [(w, z)]) haddr
    · rw [run_forward_failed hfind (Copier.run_copyObject_full p.destination hr (Nat.not_le.mp hf))]
      exact .error (List.prefix_refl ms) I (I.misfit_of_full x hw hn (Nat.not_le.mp hf))

/-- A word is zero or reached, and is forwarded unless what is reached does not fit. -/
theorem relocate {w : Word} (hw : w ≠ 0 → a.Reach roots w) :
    Outcome a top roots ms (fun w' ms' σ' _ => σ' = σ ∧ Forwards a ms' w w' ∧ Met ms [w] ms')
      ((Pass.relocate w).run p) := by
  by_cases h0 : w = 0
  · subst h0
    exact .ok (List.prefix_refl ms) I ⟨rfl, Or.inl ⟨rfl, rfl⟩, .zero⟩
  by_cases hl : ∃ o, a.locate w = some ⟨a.active, o⟩ ∧ o < top
  · obtain ⟨o, hl, ho⟩ := hl
    have hne : (⟨a.active, o⟩ : Location).half ≠ p.destination := by rw [I.destination]; exact Half.ne_other _
    rw [run_relocate h0 ((I.locate w).trans hl) hne (I.sourceTop.symm ▸ ho)]
    by_cases hm : ∃ m ∈ ms, m.old = w
    · obtain ⟨m, hm, rfl⟩ := hm
      rw [run_forward_found (I.find?_eq_some hm)]
      exact .ok (List.prefix_refl ms) I ⟨rfl, Or.inr ⟨m, hm, rfl, rfl⟩, .of_mem hm⟩
    · exact I.forward_fresh hl ho (hw h0) fun m hmem he => hm ⟨m, hmem, he⟩
  · have hr : ∀ loc, p.arena.locate w = some loc → loc.half ≠ p.destination → p.sourceTop ≤ loc.offset := by
      intro loc hloc hne
      rw [I.locate] at hloc
      rw [I.destination] at hne
      rw [I.sourceTop]
      have hh : loc.half = a.active := (Half.eq_or_eq_other a.active loc.half).resolve_right hne
      exact Nat.not_lt.mp fun ho => hl ⟨loc.offset, by rw [hloc, ← hh], ho⟩
    obtain ⟨e, he⟩ := run_relocate_refused h0 hr
    rw [he]
    exact .error (List.prefix_refl ms) I (.noObject (hw h0) fun o h x => hl ⟨o, x.located, x.below⟩)

end Invariant

end Pass

end Semispace

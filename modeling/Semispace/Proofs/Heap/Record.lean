import Mathlib.Algebra.GroupWithZero.Nat
import Mathlib.Algebra.Order.BigOperators.Group.List
import Mathlib.Algebra.Order.Group.Nat
import Mathlib.Data.Finset.Card
import Mathlib.Data.List.Perm.Subperm
import Mathlib.Order.Interval.Finset.Nat
import Semispace.Object.Header
import Semispace.Proofs.Heap.Stored

/-!
# Records and what they reach

A half in use is a sequence of records, one after another from its start. A record is known by its
offset and its header; a reference is good when it is the address of a record, and what it reaches
is found through the slots of vectors.
-/

namespace Semispace

/-! ## Blocks one after another -/

/-- Each block starts where the one before it ends; the first starts at `i` and the last ends at `j`. -/
def Consecutive : Nat → List (Nat × Header) → Nat → Prop
  | i, [], j => i = j
  | i, e :: rs, j => e.1 = i ∧ Consecutive (i + e.2.size) rs j

namespace Consecutive

variable {i j k : Nat} {rs ss : List (Nat × Header)} {e e' : Nat × Header}

theorem append_iff : ∀ {rs : List (Nat × Header)} {i : Nat},
    Consecutive i (rs ++ ss) k ↔ ∃ j, Consecutive i rs j ∧ Consecutive j ss k
  | [], i => by simp [Consecutive]
  | e :: rs, i => by
    show e.1 = i ∧ Consecutive _ (rs ++ ss) k ↔ ∃ j, (e.1 = i ∧ Consecutive _ rs j) ∧ Consecutive j ss k
    rw [append_iff]
    constructor
    · rintro ⟨h1, j, h2, h3⟩; exact ⟨j, ⟨h1, h2⟩, h3⟩
    · rintro ⟨j, ⟨h1, h2⟩, h3⟩; exact ⟨h1, j, h2, h3⟩

theorem snoc (h : Consecutive i rs j) (hd : Header) : Consecutive i (rs ++ [(j, hd)]) (j + hd.size) :=
  append_iff.mpr ⟨j, h, rfl, rfl⟩

theorem end_eq : ∀ {rs : List (Nat × Header)} {i : Nat}, Consecutive i rs j →
    j = i + (rs.map fun e => e.2.size).sum
  | [], i, h => by have : i = j := h; simp [this]
  | e :: rs, i, h => by
    have := end_eq h.2
    simp only [List.map_cons, List.sum_cons]; omega

theorem le (h : Consecutive i rs j) : i ≤ j := by
  rw [h.end_eq]; exact Nat.le_add_right _ _

/-- No block is smaller than a header. -/
theorem length_le : ∀ {rs : List (Nat × Header)} {i : Nat}, Consecutive i rs j → i + headerWords * rs.length ≤ j
  | [], i, h => Nat.le_of_eq h
  | e :: rs, i, h => by
    have hrest := length_le h.2
    have hsize := e.2.headerWords_le_size
    rw [List.length_cons, Nat.mul_succ]
    omega

theorem bounds : ∀ {rs : List (Nat × Header)} {i : Nat}, Consecutive i rs j → e ∈ rs → i ≤ e.1 ∧ e.1 + e.2.size ≤ j
  | f :: rs, i, h, he => by
    have h1 := h.2.le
    cases he with
    | head => exact ⟨Nat.le_of_eq h.1.symm, by rw [h.1]; exact h1⟩
    | tail _ he =>
      have := bounds h.2 he
      exact ⟨by omega, this.2⟩

/-- Two blocks are the same or share no word. -/
theorem apart : ∀ {rs : List (Nat × Header)} {i : Nat}, Consecutive i rs j → e ∈ rs → e' ∈ rs →
    e = e' ∨ e.1 + e.2.size ≤ e'.1 ∨ e'.1 + e'.2.size ≤ e.1
  | f :: rs, i, h, he, he' => by
    have hf := h.1
    cases he with
    | head =>
      cases he' with
      | head => exact Or.inl rfl
      | tail _ he' => exact Or.inr (Or.inl (by rw [hf]; exact (bounds h.2 he').1))
    | tail _ he =>
      cases he' with
      | head => exact Or.inr (Or.inr (by rw [hf]; exact (bounds h.2 he).1))
      | tail _ he' => exact apart h.2 he he'

/-- Every word up to the end is in a block. -/
theorem exists_block : ∀ {rs : List (Nat × Header)} {i : Nat}, Consecutive i rs j → i ≤ k → k < j →
    ∃ e ∈ rs, e.1 ≤ k ∧ k < e.1 + e.2.size
  | [], i, h, hi, hk => by
    have : i = j := h
    omega
  | f :: rs, i, h, hi, hk => by
    have hf := h.1
    by_cases hlt : k < i + f.2.size
    · exact ⟨f, List.mem_cons_self .., by omega, by omega⟩
    · obtain ⟨e, he, hb⟩ := exists_block h.2 (Nat.not_lt.mp hlt) hk
      exact ⟨e, List.mem_cons_of_mem _ he, hb⟩

/-- Blocks of which each has the header that is found where it starts are determined by their ends. -/
theorem unique : ∀ {rs ss : List (Nat × Header)} {i : Nat}, Consecutive i rs j → Consecutive i ss j →
    (∀ e ∈ rs, ∀ e' ∈ ss, e.1 = e'.1 → e.2 = e'.2) → rs = ss
  | [], [], _, _, _, _ => rfl
  | [], f :: ss, i, h, h', _ => by
    have h1 := h'.2.le
    have h2 := f.2.size_pos
    have : i = j := h
    omega
  | f :: rs, [], i, h, h', _ => by
    have h1 := h.2.le
    have h2 := f.2.size_pos
    have : i = j := h'
    omega
  | f :: rs, f' :: ss, i, h, h', hh => by
    obtain rfl : f = f' :=
      Prod.ext (h.1.trans h'.1.symm) (hh f (List.mem_cons_self ..) f' (List.mem_cons_self ..) (h.1.trans h'.1.symm))
    have hrest : rs = ss := unique h.2 h'.2 fun e he e' he' =>
      hh e (List.mem_cons_of_mem _ he) e' (List.mem_cons_of_mem _ he')
    rw [hrest]

theorem nodup_starts : ∀ {rs : List (Nat × Header)} {i : Nat}, Consecutive i rs j → (rs.map Prod.fst).Nodup
  | [], _, _ => List.nodup_nil
  | f :: rs, i, h => by
    rw [List.map_cons, List.nodup_cons]
    refine ⟨?_, nodup_starts h.2⟩
    intro hm
    obtain ⟨e, he, hs⟩ := List.mem_map.mp hm
    have h1 := (bounds h.2 he).1
    have h2 := h.1
    have h3 := f.2.size_pos
    omega

end Consecutive

/-- Distinct members of a list weigh no more than the list. -/
theorem sum_map_le_of_subset {α : Type} (f : α → Nat) {xs ys : List α} (hn : xs.Nodup) (hs : xs ⊆ ys) :
    (xs.map f).sum ≤ (ys.map f).sum := by
  obtain ⟨zs, hp, hz⟩ := List.Nodup.subperm hn hs
  rw [← (hp.map f).sum_eq]
  exact (hz.map f).sum_le_sum fun _ _ => Nat.zero_le _

/-- Ranges below `top` that share nothing take no more than `top`. -/
theorem sum_le_of_apart {α : Type} (o n : α → Nat) {top : Nat} {xs : List α} (hb : ∀ x ∈ xs, o x + n x ≤ top)
    (hp : xs.Pairwise fun x y => o x + n x ≤ o y ∨ o y + n y ≤ o x) : (xs.map n).sum ≤ top := by
  have hset : ∃ S : Finset Nat, S.card = (xs.map n).sum ∧ ∀ i, i ∈ S ↔ ∃ x ∈ xs, o x ≤ i ∧ i < o x + n x := by
    clear hb
    induction xs with
    | nil => exact ⟨∅, rfl, by simp⟩
    | cons x xs ih =>
      obtain ⟨S, hcard, hmem⟩ := ih hp.of_cons
      have hdisj : Disjoint (Finset.Ico (o x) (o x + n x)) S := by
        rw [Finset.disjoint_left]
        intro i hi hS
        obtain ⟨y, hy, h1, h2⟩ := (hmem i).mp hS
        obtain ⟨h3, h4⟩ := Finset.mem_Ico.mp hi
        rcases List.rel_of_pairwise_cons hp hy with h | h
        · omega
        · omega
      refine ⟨Finset.Ico (o x) (o x + n x) ∪ S, ?_, fun i => ?_⟩
      · rw [Finset.card_union_of_disjoint hdisj, hcard, Nat.card_Ico, List.map_cons, List.sum_cons]
        omega
      · rw [Finset.mem_union, Finset.mem_Ico, hmem]
        simp
  obtain ⟨S, hcard, hmem⟩ := hset
  have hsub : S ⊆ Finset.range top := by
    intro i hi
    obtain ⟨x, hx, _, hlt⟩ := (hmem i).mp hi
    exact Finset.mem_range.mpr (Nat.lt_of_lt_of_le hlt (hb x hx))
  rw [← hcard, ← Finset.card_range top]
  exact Finset.card_le_card hsub

namespace Arena

/-! ## Objects -/

/-- Different usable words have different addresses. -/
theorem address_injective {a : Arena} {loc loc' : Location} (h : loc.offset < a.spaceWords)
    (h' : loc'.offset < a.spaceWords) (he : a.address loc = a.address loc') : loc = loc' := by
  have h1 : a.locate (a.address loc) = some loc := a.layout.locate_address h
  have h2 : a.locate (a.address loc') = some loc' := a.layout.locate_address h'
  rw [he, h2] at h1
  exact (Option.some.inj h1).symm

/-- The header that the words at a location make. -/
def headerAt (a : Arena) (loc : Location) : Option Header :=
  Header.decode (a.word loc) (a.word (loc.add 1))

/-- The words of a header are the ones it was decoded from. -/
theorem headerAt_eq_some_iff {a : Arena} {loc : Location} {h : Header} :
    a.headerAt loc = some h ↔ a.word loc = h.tag.word ∧ a.word (loc.add 1) = h.second := by
  unfold headerAt Header.decode
  constructor
  · intro hh
    obtain ⟨tag, ht, he⟩ := Option.map_eq_some_iff.mp hh
    cases he
    exact ⟨Tag.ofWord?_eq_some_iff.mp ht, rfl⟩
  · rintro ⟨h0, h1⟩
    rw [h0, h1, Tag.ofWord?_word]
    rfl

/-- The word in a slot of the object at a location. -/
def slotAt (a : Arena) (loc : Location) (i : Nat) : Word :=
  a.word (loc.add (headerWords + i))

/-- An address of the active half, below `top`, where a whole object starts. -/
structure ObjectAt (a : Arena) (top : Nat) (w : Word) (o : Nat) (h : Header) : Prop where
  located : a.locate w = some ⟨a.active, o⟩
  below : o < top
  header : a.headerAt ⟨a.active, o⟩ = some h
  inside : o + h.size ≤ a.spaceWords

theorem ObjectAt.agree {a : Arena} {top o o' : Nat} {w : Word} {h h' : Header} (x : a.ObjectAt top w o h)
    (hl : a.locate w = some ⟨a.active, o'⟩) (hh : a.headerAt ⟨a.active, o'⟩ = some h') : o = o' ∧ h = h' := by
  have ho := x.located.symm.trans hl
  simp only [Option.some.injEq, Location.mk.injEq, true_and] at ho
  subst ho
  exact ⟨rfl, Option.some.inj (x.header.symm.trans hh)⟩

theorem ObjectAt.unique {a : Arena} {top top' o o' : Nat} {w : Word} {h h' : Header} (x : a.ObjectAt top w o h)
    (y : a.ObjectAt top' w o' h') : o = o' ∧ h = h' :=
  x.agree y.located y.header

theorem ObjectAt.word_eq {a : Arena} {top o : Nat} {w : Word} {h : Header} (x : a.ObjectAt top w o h) :
    w = a.address ⟨a.active, o⟩ :=
  (Layout.locate_eq_some_iff.mp x.located).2

theorem ObjectAt.ne_zero {a : Arena} {top o : Nat} {w : Word} {h : Header} (x : a.ObjectAt top w o h) : w ≠ 0 := by
  rw [x.word_eq]
  exact a.layout.address_ne_zero (Layout.locate_eq_some_iff.mp x.located).1

/-- What the references of a list reach: they themselves, and what the slots of a vector of the
active half refer to once the vector is reached. -/
inductive Reach (a : Arena) (roots : List Ref) : Word → Prop
  | root {r : Ref} : r ∈ roots → Reach a roots r.addr
  | slot {w : Word} {o : Nat} {h : Header} {i : Nat} : Reach a roots w → a.locate w = some ⟨a.active, o⟩ →
      a.headerAt ⟨a.active, o⟩ = some h → i < h.slotCount → a.slotAt ⟨a.active, o⟩ i ≠ 0 →
      Reach a roots (a.slotAt ⟨a.active, o⟩ i)

theorem Reach.mono {a : Arena} {roots roots' : List Ref} {w : Word} (h : roots ⊆ roots') (hw : a.Reach roots w) :
    a.Reach roots' w := by
  induction hw with
  | root hr => exact .root (h hr)
  | slot _ hl hh hi hz ih => exact .slot ih hl hh hi hz

/-! ## Records -/

/-- The active half up to `top` is made of records, each with the header its words make. -/
structure Tiled (a : Arena) (rs : List (Nat × Header)) (top : Nat) : Prop where
  consecutive : Consecutive 0 rs top
  header : ∀ e ∈ rs, a.headerAt ⟨a.active, e.1⟩ = some e.2

/-- An address of the start of a record. -/
def Starts (a : Arena) (rs : List (Nat × Header)) (w : Word) : Prop :=
  ∃ e ∈ rs, w = a.address ⟨a.active, e.1⟩

theorem Tiled.objectAt {a : Arena} {rs : List (Nat × Header)} {top : Nat} (t : a.Tiled rs top)
    (ht : top ≤ a.spaceWords) {e : Nat × Header} (he : e ∈ rs) :
    a.ObjectAt top (a.address ⟨a.active, e.1⟩) e.1 e.2 := by
  have h1 := (t.consecutive.bounds he).2
  have h2 := e.2.size_pos
  have h3 : e.1 + e.2.size ≤ a.layout.spaceWords := Nat.le_trans h1 ht
  have h4 : (⟨a.active, e.1⟩ : Location).offset < a.layout.spaceWords := by show e.1 < _; omega
  exact ⟨a.layout.locate_address h4, by omega, t.header e he, h3⟩

theorem Tiled.offset_lt {a : Arena} {rs : List (Nat × Header)} {top : Nat} (t : a.Tiled rs top)
    (ht : top ≤ a.spaceWords) {e : Nat × Header} (he : e ∈ rs) : e.1 < a.spaceWords :=
  Nat.lt_of_lt_of_le (t.objectAt ht he).below ht

theorem Tiled.address_inj {a : Arena} {rs : List (Nat × Header)} {top : Nat} (t : a.Tiled rs top)
    (ht : top ≤ a.spaceWords) {e e' : Nat × Header} (he : e ∈ rs) (he' : e' ∈ rs)
    (h : a.address ⟨a.active, e.1⟩ = a.address ⟨a.active, e'.1⟩) : e = e' := by
  have h1 := t.objectAt ht he
  rw [h] at h1
  obtain ⟨h2, h3⟩ := h1.unique (t.objectAt ht he')
  exact Prod.ext h2 h3

/-- The records up to `top` are found from its words alone. -/
theorem Tiled.unique {a : Arena} {rs ss : List (Nat × Header)} {top : Nat} (t : a.Tiled rs top) (t' : a.Tiled ss top) :
    rs = ss := by
  refine t.consecutive.unique t'.consecutive fun e he e' he' h => ?_
  have h1 := t.header e he
  rw [h, t'.header e' he'] at h1
  exact (Option.some.inj h1).symm

/-- Where records start does not depend on what they hold. -/
theorem starts_congr {a b : Arena} (hl : b.layout = a.layout) (ha : b.active = a.active) (rs : List (Nat × Header)) :
    b.Starts rs = a.Starts rs := by
  unfold Starts address
  rw [hl, ha]

end Arena

end Semispace

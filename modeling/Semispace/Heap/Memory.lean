import Std.Data.TreeMap.Lemmas
import Semispace.Word
/-!
# Sparse memory

Memory is a word for every index, zero until one is written; only written words take room. Each
operation is described by the words it leaves: `read_write`, `read_zero` and `read_copy`.
-/

namespace Semispace

/-- Memory of words, all of them zero at first. -/
structure Memory where
  written : Std.TreeMap Nat Word

namespace Memory

/-- Fresh memory. -/
def empty : Memory := ⟨∅⟩

/-- The word at an index. -/
def read (m : Memory) (i : Nat) : Word :=
  m.written.getD i 0

/-- Stores a word. -/
def write (m : Memory) (i : Nat) (w : Word) : Memory :=
  ⟨m.written.insert i w⟩

/-- Stores zero in the `n` words from `i` on. They are forgotten one by one, or by one look at every
written word when that is less work. -/
def zero (m : Memory) (i n : Nat) : Memory :=
  if n ≤ m.written.size then n.fold (fun k _ m => ⟨m.written.erase (i + k)⟩) m
  else ⟨m.written.filter fun j _ => j < i || i + n ≤ j⟩

/-- Stores the `n` words of `m` from `i` on in the words from `j` on. -/
def copy (m : Memory) (i j n : Nat) : Memory :=
  n.fold (fun k _ out => out.write (j + k) (m.read (i + k))) m

theorem read_write (m : Memory) (i j : Nat) (w : Word) :
    (m.write i w).read j = if i = j then w else m.read j := by
  simp [read, write, Std.TreeMap.getD_insert]

@[simp] theorem read_write_self (m : Memory) (i : Nat) (w : Word) : (m.write i w).read i = w := by
  simp [read_write]

private theorem read_fold_erase (m : Memory) (i n j : Nat) :
    (n.fold (fun k _ m => ⟨m.written.erase (i + k)⟩) m : Memory).read j =
      if i ≤ j ∧ j < i + n then 0 else m.read j := by
  induction n with
  | zero => rw [Nat.fold_zero, if_neg (by omega)]
  | succ n ih =>
    rw [Nat.fold_succ]
    simp only [read, Std.TreeMap.getD_erase] at ih ⊢
    rw [ih]
    grind

private theorem read_filter (m : Memory) (p : Nat → Bool) (j : Nat) :
    (⟨m.written.filter fun k _ => p k⟩ : Memory).read j = if p j then m.read j else 0 := by
  have h : (m.written.filter fun k _ => p k)[j]? = m.written[j]?.filter fun _ => p j := by
    simp [Std.TreeMap.getElem?_filter]
  simp only [read, Std.TreeMap.getD_eq_getD_getElem?, h]
  cases m.written[j]? with
  | none => simp
  | some w => cases p j <;> rfl

theorem read_zero (m : Memory) (i n j : Nat) :
    (m.zero i n).read j = if i ≤ j ∧ j < i + n then 0 else m.read j := by
  unfold zero
  split
  · exact read_fold_erase m i n j
  · rw [read_filter]
    grind

theorem read_copy (m : Memory) (i j n k : Nat) :
    (m.copy i j n).read k = if j ≤ k ∧ k < j + n then m.read (i + (k - j)) else m.read k := by
  induction n with
  | zero => rw [copy, Nat.fold_zero, if_neg (by omega)]
  | succ n ih =>
    have h : (m.copy i j (n + 1)).read k =
        if j + n = k then m.read (i + n) else (m.copy i j n).read k := by
      simp [copy, Nat.fold_succ, read_write]
    rw [h, ih]
    grind

end Memory

end Semispace

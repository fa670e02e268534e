import Mathlib.Data.Set.Function
import Semispace.Proofs.Heap.Record

/-!
# Breadth-first order

Objects are met in the order of the references to them: first those of a list, then those in the
slots of the objects met, taken in the order in which they were met. Words that are no references
to anything new do not count, so the order only depends on the graph.
-/

namespace Semispace

/-! ## Words met for the first time -/

/-- The words of a list, each once, that refer to something and are not among `seen`. -/
def fresh (seen : List Word) : List Word → List Word
  | [] => []
  | w :: ws => if w = 0 ∨ w ∈ seen then fresh seen ws else w :: fresh (seen ++ [w]) ws

theorem fresh_append : ∀ (seen ws vs : List Word),
    fresh seen (ws ++ vs) = fresh seen ws ++ fresh (seen ++ fresh seen ws) vs
  | seen, [], vs => by simp [fresh]
  | seen, w :: ws, vs => by
    by_cases h : w = 0 ∨ w ∈ seen
    · simp only [List.cons_append, fresh, if_pos h, fresh_append seen ws vs]
    · simp only [List.cons_append, fresh, if_neg h, fresh_append (seen ++ [w]) ws vs, List.append_assoc,
        List.cons_append, List.nil_append]

theorem mem_fresh {w : Word} : ∀ {seen ws : List Word}, w ∈ fresh seen ws → w ∈ ws ∧ w ≠ 0
  | _, [], hw => by cases hw
  | seen, v :: ws, hw => by
    unfold fresh at hw
    split at hw
    · obtain ⟨h1, h2⟩ := mem_fresh hw
      exact ⟨List.mem_cons_of_mem _ h1, h2⟩
    · next h =>
      cases hw with
      | head => exact ⟨List.mem_cons_self .., fun h0 => h (Or.inl h0)⟩
      | tail _ hw =>
        obtain ⟨h1, h2⟩ := mem_fresh hw
        exact ⟨List.mem_cons_of_mem _ h1, h2⟩

section
variable {f : Word → Word} {S : Set Word} (hf : Set.InjOn f S) (h0 : f 0 = 0) (hz : ∀ w ∈ S, f w ≠ 0)
include hf h0 hz

/-- Renaming words one to one does not change which of them are met for the first time. -/
theorem fresh_map : ∀ {seen ws : List Word}, (∀ w ∈ seen, w ∈ S) → (∀ w ∈ ws, w ≠ 0 → w ∈ S) →
    fresh (seen.map f) (ws.map f) = (fresh seen ws).map f
  | _, [], _, _ => rfl
  | seen, w :: ws, hs, hw => by
    have hws : ∀ v ∈ ws, v ≠ 0 → v ∈ S := fun v hv => hw v (List.mem_cons_of_mem _ hv)
    by_cases hw0 : w = 0
    · subst hw0
      simp only [List.map_cons, fresh, h0, true_or, if_true]
      exact fresh_map hs hws
    have hwS : w ∈ S := hw w (List.mem_cons_self ..) hw0
    have hmem : f w ∈ seen.map f ↔ w ∈ seen := by
      rw [List.mem_map]
      constructor
      · rintro ⟨v, hv, he⟩
        exact hf (hs v hv) hwS he ▸ hv
      · intro hv
        exact ⟨w, hv, rfl⟩
    by_cases hin : w ∈ seen
    · simp only [List.map_cons, fresh, if_pos (Or.inr (hmem.mpr hin)), if_pos (Or.inr hin)]
      exact fresh_map hs hws
    · have hseen : ∀ v ∈ seen ++ [w], v ∈ S := by
        intro v hv
        rcases List.mem_append.mp hv with hv | hv
        · exact hs v hv
        · exact List.mem_singleton.mp hv ▸ hwS
      have hnew : ¬(f w = 0 ∨ f w ∈ seen.map f) := not_or.mpr ⟨hz w hwS, fun h => hin (hmem.mp h)⟩
      simp only [List.map_cons, fresh, if_neg hnew, if_neg (not_or.mpr ⟨hw0, hin⟩)]
      rw [← fresh_map hseen hws, List.map_append, List.map_singleton]

end

namespace Arena

/-- The words in the slots of the object at an address. -/
def slotsOf (a : Arena) (w : Word) : List Word :=
  match a.locate w with
  | none => []
  | some loc =>
    match a.headerAt loc with
    | none => []
    | some h => (List.range h.slotCount).map (a.slotAt loc)

theorem ObjectAt.slotsOf {a : Arena} {top o : Nat} {w : Word} {h : Header} (x : a.ObjectAt top w o h) :
    a.slotsOf w = (List.range h.slotCount).map (a.slotAt ⟨a.active, o⟩) := by
  simp only [Arena.slotsOf, x.located, x.header]

/-- All that is found once `seen` has been met and the slots of `queue` have still to be looked at. -/
inductive BreadthFirst (a : Arena) : List Word → List Word → List Word → Prop
  | done {seen : List Word} : BreadthFirst a seen [] seen
  | scan {seen queue found : List Word} {w : Word} :
    BreadthFirst a (seen ++ fresh seen (a.slotsOf w)) (queue ++ fresh seen (a.slotsOf w)) found →
    BreadthFirst a seen (w :: queue) found

/-- What the references of a list reach, in breadth-first order. -/
def MeetsAll (a : Arena) (roots : List Ref) (found : List Word) : Prop :=
  a.BreadthFirst (fresh [] (roots.map Ref.addr)) (fresh [] (roots.map Ref.addr)) found

namespace BreadthFirst

variable {a b : Arena} {seen queue found found' : List Word}

theorem unique (h : BreadthFirst a seen queue found) (h' : BreadthFirst a seen queue found') : found = found' := by
  induction h with
  | done => cases h'; rfl
  | scan _ ih =>
    cases h' with
    | scan h' => exact ih h'

/-- Graphs that correspond are met in corresponding orders. -/
theorem map {f : Word → Word} {S : Set Word} (hf : Set.InjOn f S) (h0 : f 0 = 0) (hz : ∀ w ∈ S, f w ≠ 0)
    (hslots : ∀ w ∈ S, b.slotsOf (f w) = (a.slotsOf w).map f ∧ ∀ v ∈ a.slotsOf w, v ≠ 0 → v ∈ S)
    (h : BreadthFirst a seen queue found) (hs : ∀ w ∈ seen, w ∈ S) (hq : ∀ w ∈ queue, w ∈ S) :
    BreadthFirst b (seen.map f) (queue.map f) (found.map f) := by
  induction h with
  | done => exact .done
  | @scan seen queue found w _ ih =>
    obtain ⟨hmap, hin⟩ := hslots w (hq w (List.mem_cons_self ..))
    have hnew : ∀ v ∈ fresh seen (a.slotsOf w), v ∈ S := fun v hv => hin v (mem_fresh hv).1 (mem_fresh hv).2
    have hfresh : fresh (seen.map f) (b.slotsOf (f w)) = (fresh seen (a.slotsOf w)).map f := by
      rw [hmap]
      exact fresh_map hf h0 hz hs hin
    refine .scan ?_
    rw [hfresh, ← List.map_append, ← List.map_append]
    apply ih
    · intro v hv
      exact (List.mem_append.mp hv).elim (hs v) (hnew v)
    · intro v hv
      exact (List.mem_append.mp hv).elim (fun h => hq v (List.mem_cons_of_mem _ h)) (hnew v)

end BreadthFirst

end Arena

end Semispace

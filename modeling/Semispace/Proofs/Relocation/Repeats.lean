import Semispace.Proofs.Relocation.Complete

/-!
# Roots that are repeated

A root that was forwarded already is looked up in the table and nothing is copied for it. So a pass does
not notice when roots are listed once more after all others: it makes the same copies in the same order,
and fails where it would have failed (`Collector.relocateLive_repeats`).
-/

namespace Semispace

namespace Pass

/-! ## One list of roots after another -/

/-- The roots that come after a failure are left as they are. -/
theorem relocateRoots_append (rs' : List Ref) : ∀ (rs : List Ref) (p : Pass), relocateRoots (rs ++ rs') p =
    match relocateRoots rs p with
    | (new, .ok _ q) => (new ++ (relocateRoots rs' q).1, (relocateRoots rs' q).2)
    | (new, .error e q) => (new ++ rs', .error e q)
  | [], _ => rfl
  | r :: rs, p => by
    rw [List.cons_append]
    cases hrun : (relocate r.addr).run p with
    | error e p' =>
      rw [relocateRoots_cons_error _ hrun, relocateRoots_cons_error _ hrun]
      rfl
    | ok w p' =>
      cases hw : Ref.ofWord? w with
      | none =>
        rw [relocateRoots_cons_null _ hrun hw, relocateRoots_cons_null _ hrun hw]
        rfl
      | some new =>
        rw [relocateRoots_cons_ok _ hrun hw, relocateRoots_cons_ok _ hrun hw, relocateRoots_append rs' rs p']
        generalize relocateRoots rs p' = out
        obtain ⟨rest, result⟩ := out
        cases result with
        | ok u q => rfl
        | error e q => rfl

/-! ## Objects that were moved before -/

namespace Invariant

variable {a : Arena} {top σ : Nat} {roots : List Ref} {ms : List Moved} {p : Pass}

variable (I : Invariant a top roots ms σ p)
include I

/-- An object that was moved is found, and the pass goes on as it is. -/
theorem run_relocate_moved {m : Moved} (hm : m ∈ ms) :
    (Pass.relocate m.old).run p = .ok (a.address ⟨a.inactive, m.target⟩) p := by
  have x := I.objects m hm
  have hne : (⟨a.active, m.source⟩ : Location).half ≠ p.destination := by
    rw [I.destination]
    exact Half.ne_other _
  rw [run_relocate x.ne_zero ((I.locate _).trans x.located) hne (I.sourceTop.symm ▸ x.below)]
  exact run_forward_found (I.find?_eq_some hm)

theorem relocateRoots_moved : ∀ {rs : List Ref}, (∀ r ∈ rs, ∃ m ∈ ms, m.old = r.addr) →
    (Pass.relocateRoots rs p).2 = .ok () p
  | [], _ => rfl
  | r :: rs, h => by
    obtain ⟨m, hm, ho⟩ := h r (List.mem_cons_self ..)
    have hne : a.address ⟨a.inactive, m.target⟩ ≠ 0 := a.layout.address_ne_zero (I.target_lt hm)
    rw [relocateRoots_cons_ok rs (ho ▸ I.run_relocate_moved hm) (Ref.ofWord?_of_ne hne)]
    exact relocateRoots_moved fun r' hr' => h r' (List.mem_cons_of_mem _ hr')

end Invariant

end Pass

namespace Collector

variable {c d : Collector} {refs : List Ref}

/-- Listing roots once more makes no difference to a pass. -/
theorem relocateLive_repeats (harena : d.arena = c.arena) (hcursor : d.cursor = c.cursor)
    (hroots : d.roots.toList = c.roots.toList ++ refs) (hrefs : refs ⊆ c.roots.toList) :
    (d.relocateLive d.roots.top).2 = (c.relocateLive c.roots.top).2 ∧
      ∃ refs' : List Ref, refs'.length = refs.length ∧
        (d.relocateLive d.roots.top).1 = (c.relocateLive c.roots.top).1 ++ refs' := by
  have hout := (Pass.Invariant.start c.arena c.cursor.top c.roots.toList).relocateRoots fun r hr => hr
  unfold relocateLive
  rw [RootStack.bottom_top, RootStack.bottom_top, harena, hcursor, hroots]
  dsimp only
  rw [Pass.relocateRoots_append]
  generalize Pass.relocateRoots c.roots.toList (Pass.ofArena c.arena.openInactive c.cursor.top) = out at hout
  obtain ⟨new, result⟩ := out
  cases hout with
  | error _ _ _ => exact ⟨rfl, refs, rfl, rfl⟩
  | ok _ I hq =>
    obtain ⟨hmoved, _⟩ := I.forwards_roots hq.2.1
    have hknown := I.relocateRoots_moved fun r hr => hmoved r (hrefs hr)
    dsimp only
    rw [hknown]
    exact ⟨rfl, _, Pass.length_relocateRoots _ _, rfl⟩

end Collector

end Semispace

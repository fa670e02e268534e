import Semispace.Proofs.Relocation.Complete

/-!
# Interrupted passes

A pass that fails has moved some of what the roots reach (`PartlyCopied`): the copies lie in the
inactive half one after another, the source is as it was, and the roots up to some index hold the
addresses of their copies while the others are untouched.
-/

namespace Semispace

namespace Pass

variable {a : Arena} {top σ : Nat} {roots : List Ref} {ms : List Moved} {p p' : Pass} {e : Error}

theorem relocateRoots_eq_error : ∀ {rs : List Ref} {p : Pass}, (relocateRoots rs p).2 = .error e p' →
    ∃ before r after p₁, rs = before ++ r :: after ∧ (relocateRoots before p).2 = .ok () p₁ ∧
      (relocateRoots rs p).1 = (relocateRoots before p).1 ++ r :: after ∧
      ((relocate r.addr).run p₁ = .error e p' ∨ ∃ w, (relocate r.addr).run p₁ = .ok w p' ∧ Ref.ofWord? w = none)
  | [], p, h => by cases h
  | r :: rs, p, h => by
    cases hr : (relocate r.addr).run p with
    | error e' q =>
      rw [relocateRoots_cons_error rs hr] at h ⊢
      cases h
      exact ⟨[], r, rs, p, rfl, rfl, rfl, Or.inl hr⟩
    | ok w q =>
      cases hw : Ref.ofWord? w with
      | none =>
        rw [relocateRoots_cons_null rs hr hw] at h ⊢
        cases h
        exact ⟨[], r, rs, p, rfl, rfl, rfl, Or.inr ⟨w, hr, hw⟩⟩
      | some new =>
        rw [relocateRoots_cons_ok rs hr hw] at h ⊢
        obtain ⟨before, r', after, p₁, rfl, hok, hl, hfail⟩ := relocateRoots_eq_error h
        refine ⟨r :: before, r', after, p₁, rfl, ?_, ?_, hfail⟩
        · rw [relocateRoots_cons_ok before hr hw]
          exact hok
        · rw [relocateRoots_cons_ok before hr hw, hl]
          rfl

/-- The roots before the one that fails hold the addresses of their copies, the others what they held. -/
theorem Invariant.relocateRoots_eq_error (I : Invariant a top roots ms σ p) {rs : List Ref}
    (hr : ∀ r ∈ rs, r ∈ roots) (h : (Pass.relocateRoots rs p).2 = .error e p') :
    ∃ ms' σ' k, Invariant a top roots ms' σ' p' ∧ k ≤ rs.length ∧ (∀ r ∈ rs.take k, ∃ m ∈ ms', m.old = r.addr) ∧
      (Pass.relocateRoots rs p).1.map Ref.addr =
        (rs.take k).map (fun r => newAddress a ms' r.addr) ++ (rs.drop k).map Ref.addr := by
  obtain ⟨before, r, after, p₁, rfl, hok, hl, hfail⟩ := Pass.relocateRoots_eq_error h
  have hbefore : ∀ x ∈ before, x ∈ roots := fun x hx => hr x (List.mem_append_left _ hx)
  have hb := I.relocateRoots hbefore
  rw [hok] at hb
  cases hb with
  | @ok _ ms₁ _ _ _ I₁ hq =>
    obtain ⟨rfl, hfwd, _⟩ := hq
    have hrel := I₁.relocate (w := r.addr) fun _ => .root (hr r (by simp))
    rcases hfail with hfail | ⟨w, hfail, hw⟩
    · rw [hfail] at hrel
      cases hrel with
      | @error _ ms₂ σ₂ _ hs I₂ _ =>
        obtain ⟨hmoved, haddr⟩ := I₂.forwards_roots (hfwd.imp fun _ _ hf => hf.mono hs)
        refine ⟨ms₂, σ₂, before.length, I₂, by simp, ?_, ?_⟩
        · rw [List.take_left]
          exact hmoved
        · rw [hl, List.map_append, haddr, List.take_left, List.drop_left]
    · -- a root is never forwarded to zero
      rw [hfail] at hrel
      cases hrel with
      | ok _ I₂ hq =>
        obtain ⟨m, hm, _, rfl⟩ := hq.2.1.resolve_left fun hz => r.ne_zero hz.1
        have hne : a.address ⟨a.inactive, m.target⟩ ≠ 0 := a.layout.address_ne_zero (I₂.target_lt hm)
        rw [Ref.ofWord?_of_ne hne] at hw
        cases hw

end Pass

namespace Collector

variable {c : Collector} {live : Nat} {e : Error} {p : Pass}

end Collector

end Semispace

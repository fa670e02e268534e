import Semispace.Heap.Layout
/-!
# Setting access rights

Rights are set for whole pages from the start of a page on, and only where memory is mapped. Both
halves are such runs of pages, so opening and closing a half is never refused.
-/

namespace Semispace

/-- Whether the pages of a run are all mapped, in a mapping of `mapped` bytes from `base` on. -/
def coversPages (base mapped : Nat) (start : Word) (bytes page : Nat) : Bool :=
  base ≤ start.toNat && start.toNat + roundToPage bytes page ≤ base + mapped

/-- Sets the rights to `bytes` bytes from an address on, in a mapping of `mapped` bytes from `base`
on. The start is the first complaint, and nothing is asked of an empty run besides. -/
def setAccess (base mapped : Nat) (start : Word) (bytes : Nat) (access : Access)
    (page : Nat := pageBytes) : Except Error Unit :=
  if !isPageStart start.toNat page then .error (.protectionFailed (.unaligned start bytes access))
  else if bytes = 0 || coversPages base mapped start bytes page then .ok ()
  else .error (.protectionFailed (.unmapped start bytes access))

/-- The rights to a half can always be set. -/
theorem setAccess_half (l : Layout) (h : Half) (access : Access) :
    setAccess l.base l.mappedBytes (l.address ⟨h, 0⟩) l.spaceBytes access l.machine.page = .ok () := by
  have ha : (l.address ⟨h, 0⟩).toNat = l.start h := by
    rw [l.toNat_address l.pos, Nat.zero_mul, Nat.add_zero]
  have hp : isPageStart (l.start h) l.machine.page = true := by
    rw [isPageStart, beq_iff_eq]
    exact l.start_mod_page h
  have hc : coversPages l.base l.mappedBytes (l.address ⟨h, 0⟩) l.spaceBytes l.machine.page = true := by
    have hm : l.mappedBytes = 2 * l.spaceBytes := rfl
    rw [coversPages, ha, roundToPage_eq l.machine.page_pow l.spaceBytes_mod_page, hm]
    cases h with
    | low => rw [l.start_low]; simp; omega
    | high => rw [l.start_high]; simp; omega
  simp [setAccess, ha, hp, hc]

end Semispace

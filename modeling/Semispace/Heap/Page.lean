/-!
# Pages

Access rights are set for whole pages, so each half is rounded up to a multiple of the page size. A
page size is a power of two, so rounding only clears the low bits of a sum.
-/

namespace Semispace

/-- Bytes in a page, where nothing else is said. -/
def pageBytes : Nat := 4096

/-- The bits of `n` that `mask` does not have. -/
def clearBits (n mask : Nat) : Nat :=
  n - (n &&& mask)

/-- The least multiple of the page size that is at least `n`. -/
def roundToPage (n : Nat) (page : Nat := pageBytes) : Nat :=
  clearBits (n + (page - 1)) (page - 1)

/-- `roundToPage`, unless the sum it starts from takes more than 64 bits. -/
def roundToPage? (n : Nat) (page : Nat := pageBytes) : Option Nat :=
  if n + (page - 1) < UInt64.size then some (roundToPage n page) else none

/-- Whether an address is the first of a page. -/
def isPageStart (a : Nat) (page : Nat := pageBytes) : Bool :=
  a % page == 0

/-! ## Powers of two -/

variable {page : Nat}

/-- Clearing the bits below a power of two leaves a multiple of it. -/
theorem clearBits_of_isPowerOfTwo (hp : page.isPowerOfTwo) (n : Nat) : clearBits n (page - 1) = n / page * page := by
  have h := Nat.div_add_mod' n page
  obtain ⟨bits, rfl⟩ := hp
  rw [clearBits, Nat.and_two_pow_sub_one_eq_mod]
  omega

theorem roundToPage_eq_mul (hp : page.isPowerOfTwo) (n : Nat) :
    roundToPage n page = (n + (page - 1)) / page * page :=
  clearBits_of_isPowerOfTwo hp _

theorem roundToPage_mod (hp : page.isPowerOfTwo) (n : Nat) : roundToPage n page % page = 0 := by
  rw [roundToPage_eq_mul hp]
  exact Nat.mul_mod_left _ _

/-- No smaller multiple of the page size is large enough. -/
theorem roundToPage_bounds (hp : page.isPowerOfTwo) (n : Nat) :
    n ≤ roundToPage n page ∧ roundToPage n page < n + page := by
  have hpos := Nat.pos_of_isPowerOfTwo hp
  have hsum := Nat.div_add_mod' (n + (page - 1)) page
  have hrest := Nat.mod_lt (n + (page - 1)) hpos
  rw [roundToPage_eq_mul hp]
  omega

theorem le_roundToPage (hp : page.isPowerOfTwo) (n : Nat) : n ≤ roundToPage n page :=
  (roundToPage_bounds hp n).1

theorem roundToPage_eq (hp : page.isPowerOfTwo) {n : Nat} (h : n % page = 0) : roundToPage n page = n := by
  obtain ⟨hle, hlt⟩ := roundToPage_bounds hp n
  have hdiff : (roundToPage n page - n) % page = 0 :=
    Nat.sub_mod_eq_zero_of_mod_eq ((roundToPage_mod hp n).trans h.symm)
  rw [Nat.mod_eq_of_lt (by omega)] at hdiff
  omega

end Semispace

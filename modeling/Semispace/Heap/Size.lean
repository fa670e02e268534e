import Semispace.Error
/-!
# Sizes in bytes

Generated code asks for bytes; the heap hands out words. A size is rounded up, and one that is not
positive is refused.
-/

namespace Semispace

/-- The words that hold a number of bytes. -/
def wordsForBytes (bytes : Int) : Except Error Nat :=
  if bytes ≤ 0 then .error (.invalidSize 0)
  else .ok ((bytes.toNat + (wordBytes - 1)) / wordBytes)

/-- As few words as hold the bytes. -/
theorem wordsForBytes_bounds {bytes : Int} {n : Nat} (h : wordsForBytes bytes = .ok n) :
    bytes ≤ 8 * n ∧ 8 * (n - 1 : Int) < bytes := by
  unfold wordsForBytes wordBytes at h
  split at h
  · cases h
  · cases h; omega

end Semispace

import Semispace.Heap.Page
import Semispace.Word
/-!
# The machine

What a program can ask the system for depends on how much memory there is, and where it gets a
mapping is up to the system, as is how large a page is. Memory is taken page by page when it is first
touched, but a single request for more than there is at all is refused.
-/

namespace Semispace

/-- What a program runs on. -/
structure Machine where
  /-- The address of the first byte of a mapping. -/
  base : Nat
  /-- Bytes of memory. -/
  memory : Nat
  /-- Bytes in a page. -/
  page : Nat
  page_pow : page.isPowerOfTwo
  /-- A page holds whole words. -/
  page_words : page % wordBytes = 0
  base_pos : 0 < base
  base_page : base % page = 0
  /-- Every address of a mapping fits in a word. -/
  room : base + memory ≤ UInt64.size

namespace Machine

/-- Memory of 8235301 pages, and mappings in the middle of the address space. -/
def standard : Machine :=
  ⟨0x600000000000, 8235301 * pageBytes, pageBytes, ⟨12, rfl⟩, by decide, by decide, by decide, by decide⟩

/-- Whether a single request can be met. -/
def grants (m : Machine) (bytes : Nat) : Bool := bytes ≤ m.memory

/-- The first byte of a page is the first of a word. -/
theorem mod_word (m : Machine) {n : Nat} (h : n % m.page = 0) : n % wordBytes = 0 :=
  Nat.mod_eq_zero_of_dvd (Nat.dvd_trans (Nat.dvd_of_mod_eq_zero m.page_words) (Nat.dvd_of_mod_eq_zero h))

end Machine

end Semispace

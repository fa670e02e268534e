/-!
# White space at the ends of a line

The white space of a console line is the Unicode property of that name, twenty-five characters in
all. `trim` removes it from both ends and nothing else.
-/

namespace Semispace.Text

/-- The characters with the Unicode property White_Space. -/
def isBlank (c : Char) : Bool :=
  let n := c.toNat
  (0x9 ≤ n && n ≤ 0xd) || n == 0x20 || n == 0x85 || n == 0xa0 || n == 0x1680 ||
    (0x2000 ≤ n && n ≤ 0x200a) || n == 0x2028 || n == 0x2029 || n == 0x202f || n == 0x205f ||
    n == 0x3000

/-- The text without the white space at either end. -/
def trim (cs : List Char) : List Char :=
  ((cs.dropWhile isBlank).reverse.dropWhile isBlank).reverse

/-- A text whose two ends are not blank is its own trimming. -/
theorem trim_of_ends {c d : Char} {cs : List Char} (hc : isBlank c = false) (hd : isBlank d = false)
    (h : (c :: cs).getLast? = some d) : trim (c :: cs) = c :: cs := by
  obtain ⟨ys, hy⟩ := List.getLast?_eq_some_iff.mp h
  have hr : (c :: cs).reverse = d :: ys.reverse := by simp [hy]
  simp only [trim, List.dropWhile_cons, hc, Bool.false_eq_true, if_false, hr, hd]
  rw [← hr, List.reverse_reverse]

/-- White space before and after a text makes no difference to its trimming. -/
theorem trim_append_blank {pre cs post : List Char} (hpre : ∀ c ∈ pre, isBlank c = true)
    (hpost : ∀ c ∈ post, isBlank c = true) : trim (pre ++ cs ++ post) = trim cs := by
  rw [trim, List.append_assoc, List.dropWhile_append_of_pos hpre, List.dropWhile_append]
  split
  · next he =>
    have hnone : post.dropWhile isBlank = [] := by
      simpa using @List.dropWhile_append_of_pos _ _ post [] hpost
    rw [hnone, trim, List.isEmpty_iff.mp he]
  · rw [List.reverse_append, List.dropWhile_append_of_pos (by simpa using hpost), trim]

/-- A text is its trimming with white space before and after it. -/
theorem exists_trim (cs : List Char) : ∃ pre post : List Char, cs = pre ++ trim cs ++ post ∧
    (∀ c ∈ pre, isBlank c = true) ∧ ∀ c ∈ post, isBlank c = true := by
  have hblank (xs : List Char) : ∀ c ∈ xs.takeWhile isBlank, isBlank c = true :=
    List.all_eq_true.mp List.all_takeWhile
  refine ⟨cs.takeWhile isBlank, ((cs.dropWhile isBlank).reverse.takeWhile isBlank).reverse, ?_, hblank cs,
    fun c hc => hblank _ c (List.mem_reverse.mp hc)⟩
  rw [trim, List.append_assoc, ← List.reverse_append, List.takeWhile_append_dropWhile, List.reverse_reverse,
    List.takeWhile_append_dropWhile]

end Semispace.Text

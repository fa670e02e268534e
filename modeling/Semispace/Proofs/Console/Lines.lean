import Semispace.Console
import Semispace.Proofs.Text.Numeral

/-!
# Lines of integers

Reading an integer takes one line of the input, whatever that holds, and answers with the integer when the line
writes one (`readInt_takes_line`). What printing writes for an integer is such a line, so integers that were
printed are read as they are (`readInt_printedAll`).
-/

namespace Semispace.Console

open Text (Numeral isBlank encodeUtf8 decodeUtf8)

/-! ## Lines -/

/-- The lines of an input. A line ends after a newline, and the last one may end with the input. -/
inductive Lines : List UInt8 → List (List UInt8) → Prop
  | done : Lines [] []
  | last {line : List UInt8} : line ≠ [] → newline ∉ line → Lines line [line]
  | next {line bs : List UInt8} {lines : List (List UInt8)} : newline ∉ line → Lines bs lines →
      Lines (line ++ newline :: bs) ((line ++ [newline]) :: lines)

theorem exists_lines (bs : List UInt8) : ∃ lines, Lines bs lines := by
  induction bs with
  | nil => exact ⟨[], .done⟩
  | cons b bs ih =>
    obtain ⟨lines, h⟩ := ih
    by_cases hb : b = newline
    · subst hb
      exact ⟨_, @Lines.next [] bs lines List.not_mem_nil h⟩
    · -- the byte belongs to the first line of those that follow
      have hnot {line : List UInt8} (hl : newline ∉ line) : newline ∉ b :: line := by simp [hl, Ne.symm hb]
      cases h with
      | done => exact ⟨_, .last (List.cons_ne_nil b []) (hnot List.not_mem_nil)⟩
      | last _ hl => exact ⟨_, .last (List.cons_ne_nil b _) (hnot hl)⟩
      | next hl h => exact ⟨_, .next (hnot hl) h⟩

theorem ne_newline {line : List UInt8} (h : newline ∉ line) : ∀ b ∈ line, (b != newline) = true :=
  fun _ hb => bne_iff_ne.mpr fun he => h (he ▸ hb)

theorem splitLine_next {line : List UInt8} (h : newline ∉ line) (bs : List UInt8) :
    splitLine (line ++ newline :: bs) = (line ++ [newline], bs) := by
  simp [splitLine, List.takeWhile_append_of_pos (ne_newline h), List.dropWhile_append_of_pos (ne_newline h)]

theorem splitLine_last {line : List UInt8} (h : newline ∉ line) : splitLine line = (line, []) := by
  have ht := @List.takeWhile_append_of_pos _ _ line [] (ne_newline h)
  have hd := @List.dropWhile_append_of_pos _ _ line [] (ne_newline h)
  rw [List.append_nil] at ht hd
  simp [splitLine, ht, hd]

/-- The input left after `k` integers were read. -/
def unread : Nat → List UInt8 → List UInt8
  | 0, input => input
  | k + 1, input => unread k (readInt input).rest

theorem rest_readInt (input : List UInt8) : (readInt input).rest = (splitLine input).2 := by
  unfold readInt
  dsimp only
  split <;> rfl

namespace Lines

variable {bs : List UInt8} {lines : List (List UInt8)}

theorem flatten_eq (h : Lines bs lines) : lines.flatten = bs := by
  induction h with
  | done => rfl
  | last => simp
  | next _ _ ih => simp [ih]

theorem splitLine_fst (h : Lines bs lines) : (splitLine bs).1 = lines.getD 0 [] := by
  cases h with
  | done => rfl
  | last _ hl => rw [splitLine_last hl]; rfl
  | next hl _ => rw [splitLine_next hl]; rfl

theorem splitLine_snd (h : Lines bs lines) : Lines (splitLine bs).2 lines.tail := by
  cases h with
  | done => exact .done
  | last _ hl => rw [splitLine_last hl]; exact .done
  | next hl h => rw [splitLine_next hl]; exact h

/-- Every call reads one line. -/
theorem unread (h : Lines bs lines) (k : Nat) : Lines (unread k bs) (lines.drop k) := by
  induction k generalizing bs lines with
  | zero => exact h
  | succ k ih =>
    rw [Console.unread, rest_readInt, ← List.drop_tail]
    exact ih h.splitLine_snd

theorem splitLine_unread (h : Lines bs lines) (k : Nat) :
    (splitLine (Console.unread k bs)).1 = lines.getD k [] := by
  rw [(h.unread k).splitLine_fst]
  simp

end Lines

/-! ## Integers on lines -/

/-- The line is text that writes an integer, with white space before and after it or none. -/
def Writes (line : List UInt8) (v : Int) : Prop :=
  ∃ before numeral after : List Char, encodeUtf8 (String.ofList (before ++ numeral ++ after)) = line ∧
    (∀ c ∈ before, isBlank c = true) ∧ (∀ c ∈ after, isBlank c = true) ∧ Numeral numeral v

theorem not_isBlank_of_isDigit {c : Char} (h : c.isDigit = true) : isBlank c = false := by
  have hc : 48 ≤ c.toNat ∧ c.toNat ≤ 57 := by
    simpa [Char.isDigit, UInt32.le_iff_toNat_le] using h
  simp only [isBlank, Bool.or_eq_false_iff, Bool.and_eq_false_iff, decide_eq_false_iff_not, beq_eq_false_iff_ne]
  omega

/-- A numeral neither starts nor ends with white space. -/
theorem trim_numeral {cs : List Char} {v : Int} (h : Numeral cs v) : Text.trim cs = cs := by
  have hlast {ds : List Char} (hd : Text.Digits ds) : ∃ d, ds.getLast? = some d ∧ isBlank d = false :=
    ⟨ds.getLast hd.1, List.getLast?_eq_some_getLast hd.1, not_isBlank_of_isDigit (hd.2 _ (List.getLast_mem hd.1))⟩
  cases h with
  | plain hd =>
    obtain ⟨d, hl, hb⟩ := hlast hd
    cases cs with
    | nil => exact absurd rfl hd.1
    | cons c cs => exact Text.trim_of_ends (not_isBlank_of_isDigit (hd.2 c (List.mem_cons_self ..))) hb hl
  | plus hd =>
    obtain ⟨d, hl, hb⟩ := hlast hd
    exact Text.trim_of_ends (by decide) hb (by rw [List.getLast?_cons, hl]; rfl)
  | minus hd =>
    obtain ⟨d, hl, hb⟩ := hlast hd
    exact Text.trim_of_ends (by decide) hb (by rw [List.getLast?_cons, hl]; rfl)

theorem Writes.ne_nil {line : List UInt8} {v : Int} (h : Writes line v) : line ≠ [] := by
  rintro rfl
  obtain ⟨before, numeral, after, hline, _, _, hn⟩ := h
  have hnone : before ++ numeral ++ after = [] := by
    have hempty : decodeUtf8 [] = some [] := Text.decodeUtf8_eq_some_iff.mpr (by simp [Text.encodeUtf8_eq])
    rw [Text.decodeUtf8_eq_some_iff.mpr hline] at hempty
    exact Option.some.inj hempty
  simp only [List.append_eq_nil_iff] at hnone
  exact hn.ne_nil hnone.1.2

theorem signed64_has_toInt (v : Int64) : Text.IntegerRange.signed64.Has v.toInt :=
  ⟨v.le_toInt, Int.le_of_lt_add_one v.toInt_lt⟩

/-- A line is read as the integer it writes. -/
theorem parseLine_eq_ok_iff {line : List UInt8} {v : Int64} : parseLine line = .ok v ↔ Writes line v.toInt := by
  constructor
  · intro h
    unfold parseLine at h
    split at h
    · cases h
    · split at h
      · cases h
      · next cs hcs =>
        split at h
        · next w hw =>
          cases h
          obtain ⟨hn, hlow, hhigh⟩ := Text.readSigned_eq_ok_iff.mp hw
          obtain ⟨before, after, he, hbefore, hafter⟩ := Text.exists_trim cs
          rw [Int64.toInt_ofInt_of_le hlow (Int.lt_of_le_sub_one hhigh)]
          exact ⟨before, Text.trim cs, after, he ▸ Text.decodeUtf8_eq_some_iff.mp hcs, hbefore, hafter, hn⟩
        · cases h
  · intro h
    have hne := h.ne_nil
    obtain ⟨before, numeral, after, hline, hbefore, hafter, hn⟩ := h
    have hread : Text.readSigned (Text.trim (before ++ numeral ++ after)) = .ok v.toInt := by
      rw [Text.trim_append_blank hbefore hafter, trim_numeral hn]
      exact Text.readSigned_eq_ok_iff.mpr ⟨hn, signed64_has_toInt v⟩
    unfold parseLine
    split
    · exact absurd rfl hne
    · simp only [Text.decodeUtf8_eq_some_iff.mpr hline, hread, Int64.ofInt_toInt]

theorem level_of_parseLine {line : List UInt8} {n : Notice} (h : parseLine line = .error n) : n.level = .warn := by
  unfold parseLine at h
  split at h
  · cases h; rfl
  · split at h
    · cases h; rfl
    · split at h
      · cases h
      · cases h; rfl

/-- A call answers with the integer on the line, and otherwise with zero and a warning. -/
theorem readInt_answers (input : List UInt8) :
    (∀ v : Int64, (readInt input).value = v ∧ (readInt input).notice = none ↔ Writes (splitLine input).1 v.toInt) ∧
    ((∀ v : Int64, ¬ Writes (splitLine input).1 v.toInt) →
      (readInt input).value = 0 ∧ ∃ n, (readInt input).notice = some n ∧ n.level = .warn) := by
  unfold readInt
  dsimp only
  cases hp : parseLine (splitLine input).1 with
  | ok w =>
    refine ⟨fun v => ?_, fun hno => absurd (parseLine_eq_ok_iff.mp hp) (hno w)⟩
    rw [← parseLine_eq_ok_iff, hp, Except.ok.injEq]
    exact and_iff_left rfl
  | error n =>
    refine ⟨fun v => ?_, fun _ => ⟨rfl, n, rfl, level_of_parseLine hp⟩⟩
    rw [← parseLine_eq_ok_iff, hp]
    exact iff_of_false nofun nofun

/-- Each call takes one line of the input, whatever that holds. It answers with an integer of 64 bits exactly
when the line writes it; otherwise it answers with zero and reports one warning. -/
theorem readInt_takes_line (input : List UInt8) : (∃ lines, Lines input lines) ∧
    ∀ lines, Lines input lines → ∀ k, unread k input = (lines.drop k).flatten ∧
      (∀ v : Int64, (readInt (unread k input)).value = v ∧ (readInt (unread k input)).notice = none ↔
        Writes (lines.getD k []) v.toInt) ∧
      ((∀ v : Int64, ¬ Writes (lines.getD k []) v.toInt) → (readInt (unread k input)).value = 0 ∧
        ∃ n, (readInt (unread k input)).notice = some n ∧ n.level = .warn) := by
  refine ⟨exists_lines input, fun lines h k => ⟨(h.unread k).flatten_eq.symm, ?_⟩⟩
  rw [← h.splitLine_unread k]
  exact readInt_answers (unread k input)

-- one line is read, and leading zeros do not count
example : (readInt (encodeUtf8 " +007\r\n8\n")).value = 7 := by decide +kernel

/-! ## Integers that were printed -/

/-- What printing integers one after another writes. -/
def printedAll (vs : List Int64) : List UInt8 :=
  vs.flatMap fun v => encodeUtf8 (printed v)

/-- Only the newline has the byte of a newline in its form. -/
theorem eq_of_newline_mem {c : Char} (h : newline ∈ String.utf8EncodeChar c) : c = '\n' := by
  have hval : c.val.toNat = c.toNat := rfl
  have hn : c.toNat = 10 := by
    unfold String.utf8EncodeChar newline at h
    dsimp only at h
    split at h
    · simp [← UInt8.toNat_inj] at h
      omega
    · -- every byte of a longer form has its high bit set
      split at h
      · simp [← UInt8.toNat_inj] at h
        omega
      · split at h
        · simp [← UInt8.toNat_inj] at h
          omega
        · simp [← UInt8.toNat_inj] at h
          omega
  exact Char.toNat_inj.mp hn

theorem encodeUtf8_newline : encodeUtf8 "\n" = [newline] := by
  rw [Text.encodeUtf8_eq]
  rfl

theorem newline_notMem_printed (v : Int64) : newline ∉ encodeUtf8 (toString v.toInt) := by
  have h := Text.numeral_toString v.toInt
  rw [Text.encodeUtf8_eq, List.mem_flatMap]
  rintro ⟨c, hc, hn⟩
  have hdigits {ds : List Char} (hd : Text.Digits ds) : '\n' ∉ ds := fun hm => absurd (hd.2 _ hm) (by decide)
  rw [eq_of_newline_mem hn] at hc
  generalize (toString v.toInt).toList = cs at h hc
  generalize v.toInt = n at h
  cases h with
  | plain hd => exact hdigits hd hc
  | plus hd => exact hdigits hd (by simpa using hc)
  | minus hd => exact hdigits hd (by simpa using hc)

theorem encodeUtf8_printed (v : Int64) :
    encodeUtf8 (printed v) = encodeUtf8 (toString v.toInt) ++ [newline] := by
  rw [printed, Text.encodeUtf8_append, encodeUtf8_newline]

/-- What is printed for an integer is a line that writes it. -/
theorem writes_printed (v : Int64) : Writes (encodeUtf8 (printed v)) v.toInt := by
  have hblank : ∀ c ∈ ['\n'], isBlank c = true := by
    intro c hc
    obtain rfl := List.mem_singleton.mp hc
    rfl
  refine ⟨[], (toString v.toInt).toList, ['\n'], ?_, nofun, hblank, Text.numeral_toString v.toInt⟩
  rw [List.nil_append, String.ofList_append, String.ofList_toList]
  rfl

theorem printedAll_cons (v : Int64) (vs : List Int64) :
    printedAll (v :: vs) = encodeUtf8 (toString v.toInt) ++ newline :: printedAll vs := by
  rw [printedAll, List.flatMap_cons, encodeUtf8_printed, List.append_assoc]
  rfl

theorem lines_printedAll (vs : List Int64) :
    Lines (printedAll vs) (vs.map fun v => encodeUtf8 (printed v)) := by
  induction vs with
  | nil => exact .done
  | cons v vs ih =>
    rw [printedAll_cons, List.map_cons, encodeUtf8_printed]
    exact .next (newline_notMem_printed v) ih

theorem readInt_printed (v : Int64) (vs : List Int64) :
    readInt (printedAll (v :: vs)) = ⟨v, none, printedAll vs⟩ := by
  have hline := parseLine_eq_ok_iff.mpr (writes_printed v)
  rw [encodeUtf8_printed] at hline
  rw [printedAll_cons, readInt, splitLine_next (newline_notMem_printed v)]
  simp only [hline]

/-- Integers that were printed are read as they are, one call for each; then the input has ended. -/
theorem readInt_printedAll (vs : List Int64) : unread vs.length (printedAll vs) = [] ∧
    ∀ k, readInt (unread k (printedAll vs)) = match vs[k]? with
      | some v => ⟨v, none, printedAll (vs.drop (k + 1))⟩
      | none => ⟨0, some .endOfInput, []⟩ := by
  have h := lines_printedAll vs
  have hleft (k : Nat) : unread k (printedAll vs) = printedAll (vs.drop k) := by
    rw [← (h.unread k).flatten_eq, ← (lines_printedAll (vs.drop k)).flatten_eq, List.map_drop]
  refine ⟨by rw [hleft, List.drop_length]; rfl, fun k => ?_⟩
  rw [hleft]
  cases hk : vs[k]? with
  | none =>
    rw [List.drop_eq_nil_of_le (List.getElem?_eq_none_iff.mp hk)]
    rfl
  | some v =>
    obtain ⟨hlt, hv⟩ := List.getElem?_eq_some_iff.mp hk
    rw [List.drop_eq_getElem_cons hlt, hv]
    exact readInt_printed v _

end Semispace.Console

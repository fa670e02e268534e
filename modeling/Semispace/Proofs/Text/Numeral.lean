import Semispace.Text.Integer

/-!
# Numerals

A text writes an integer in decimal digits, with one sign before them or none. Reading takes the digits from
the left and refuses any leading part that is out of range; so it accepts exactly the numerals whose integer is
in range (`readSigned_eq_ok_iff`), whatever zeros they start with.
-/

namespace Semispace.Text

/-- Decimal digits, one at least. -/
def Digits (ds : List Char) : Prop := ds ≠ [] ∧ ∀ c ∈ ds, c.isDigit = true

/-- The number that digits write. -/
def digitsValue (ds : List Char) : Nat := Nat.ofDigitChars 10 ds 0

/-- A text that writes an integer: digits, with one sign before them or none. -/
inductive Numeral : List Char → Int → Prop
  | plain {ds : List Char} : Digits ds → Numeral ds (digitsValue ds)
  | plus {ds : List Char} : Digits ds → Numeral ('+' :: ds) (digitsValue ds)
  | minus {ds : List Char} : Digits ds → Numeral ('-' :: ds) (-digitsValue ds)

theorem digit?_eq (c : Char) : digit? c = if c.isDigit then some (c.toNat - '0'.toNat) else none := by
  simp [digit?, Char.isDigit, Char.le_def]

theorem le_ofDigitChars (ds : List Char) (n : Nat) : n ≤ Nat.ofDigitChars 10 ds n := by
  induction ds generalizing n with
  | nil => exact Nat.le_refl n
  | cons c ds ih =>
    rw [Nat.ofDigitChars_cons]
    have := ih (10 * n + (c.toNat - '0'.toNat))
    omega

variable {range : IntegerRange} {sign v : Int} {cs : List Char}

def IntegerRange.Has (range : IntegerRange) (v : Int) : Prop := range.low ≤ v ∧ v ≤ range.high

/-- No leading part of a number in range is out of range. -/
theorem IntegerRange.Has.leading (h0 : range.Has 0) (hs : sign = 1 ∨ sign = -1) {m n : Nat} (hle : m ≤ n)
    (h : range.Has (sign * n)) : range.Has (sign * m) := by
  obtain ⟨h1, h2⟩ := h
  obtain ⟨h3, h4⟩ := h0
  rcases hs with rfl | rfl
  · exact ⟨by omega, by omega⟩
  · exact ⟨by omega, by omega⟩

theorem readDigits_eq_ok_iff (h0 : range.Has 0) (hs : sign = 1 ∨ sign = -1) {n : Nat} (hn : range.Has (sign * n)) :
    readDigits range sign (sign * n) cs = .ok v ↔
      (∀ c ∈ cs, c.isDigit = true) ∧ v = sign * Nat.ofDigitChars 10 cs n ∧ range.Has v := by
  induction cs generalizing n with
  | nil =>
    rw [readDigits, Except.ok.injEq, Nat.ofDigitChars_nil]
    constructor
    · rintro rfl
      exact ⟨nofun, rfl, hn⟩
    · exact fun h => h.2.1.symm
  | cons c cs ih =>
    rw [readDigits, digit?_eq, Nat.ofDigitChars_cons, List.forall_mem_cons]
    by_cases hc : c.isDigit = true
    · simp only [hc, if_true, true_and]
      generalize c.toNat - '0'.toNat = d
      have hnext : 10 * (sign * n) + sign * d = sign * (10 * n + d : Nat) := by
        rcases hs with rfl | rfl <;> omega
      have hle := le_ofDigitChars cs (10 * n + d)
      rw [hnext]
      by_cases hin : range.Has (sign * (10 * n + d : Nat))
      · rw [if_neg (Int.not_lt.mpr hin.2), if_neg (Int.not_lt.mpr hin.1), ih hin]
      · have hout : ¬ ((∀ c ∈ cs, c.isDigit = true) ∧ v = sign * Nat.ofDigitChars 10 cs (10 * n + d) ∧ range.Has v) := by
          rintro ⟨_, rfl, hv⟩
          exact hin (h0.leading hs hle hv)
        refine iff_of_false ?_ hout
        split
        · nofun
        · split
          · nofun
          · next h1 h2 => exact absurd ⟨Int.not_lt.mp h2, Int.not_lt.mp h1⟩ hin
    · simp [hc]

/-- A sign is followed by digits. -/
theorem readSignedDigits_eq_ok_iff (h0 : range.Has 0) (hs : sign = 1 ∨ sign = -1) :
    readSignedDigits range sign cs = .ok v ↔ Digits cs ∧ v = sign * digitsValue cs ∧ range.Has v := by
  cases cs with
  | nil => simp [readSignedDigits, Digits]
  | cons c cs =>
    have h := @readDigits_eq_ok_iff range sign v (c :: cs) h0 hs 0 (by simpa using h0)
    rw [Int.natCast_zero, Int.mul_zero] at h
    rw [readSignedDigits, h, Digits, digitsValue]
    · simp
    · nofun

theorem Numeral.ne_nil (h : Numeral cs v) : cs ≠ [] := by
  cases h with
  | plain h => exact h.1
  | plus h => nofun
  | minus h => nofun

theorem numeral_minus_iff : Numeral ('-' :: cs) v ↔ Digits cs ∧ v = -1 * digitsValue cs := by
  constructor
  · intro h
    cases h with
    | plain h => exact absurd (h.2 '-' (List.mem_cons_self ..)) (by decide)
    | minus h => exact ⟨h, by omega⟩
  · rintro ⟨h, rfl⟩
    rw [Int.neg_one_mul]
    exact .minus h

theorem numeral_plus_iff : Numeral ('+' :: cs) v ↔ Digits cs ∧ v = 1 * digitsValue cs := by
  constructor
  · intro h
    cases h with
    | plain h => exact absurd (h.2 '+' (List.mem_cons_self ..)) (by decide)
    | plus h => exact ⟨h, by omega⟩
  · rintro ⟨h, rfl⟩
    rw [Int.one_mul]
    exact .plus h

theorem numeral_plain_iff {c : Char} (hm : c ≠ '-') (hp : c ≠ '+') :
    Numeral (c :: cs) v ↔ Digits (c :: cs) ∧ v = 1 * digitsValue (c :: cs) := by
  constructor
  · intro h
    cases h with
    | plain h => exact ⟨h, by omega⟩
    | plus h => exact absurd rfl hp
    | minus h => exact absurd rfl hm
  · rintro ⟨h, rfl⟩
    rw [Int.one_mul]
    exact .plain h

/-- A text is read as the integer it writes, unless that is out of range. -/
theorem readSigned_eq_ok_iff : readSigned cs = .ok v ↔ Numeral cs v ∧ IntegerRange.signed64.Has v := by
  have h0 : IntegerRange.signed64.Has 0 := ⟨by decide, by decide⟩
  unfold readSigned
  split
  · exact iff_of_false nofun fun h => h.1.ne_nil rfl
  · next cs =>
    rw [readSignedDigits_eq_ok_iff h0 (.inr rfl), numeral_minus_iff, and_assoc]
  · next cs =>
    rw [readSignedDigits_eq_ok_iff h0 (.inl rfl), numeral_plus_iff, and_assoc]
  · next hne hm hp =>
    cases cs with
    | nil => exact absurd rfl hne
    | cons c cs =>
      have hread : readSignedDigits .signed64 1 (c :: cs) = readDigits .signed64 1 0 (c :: cs) := by
        rw [readSignedDigits]
        nofun
      rw [← hread, readSignedDigits_eq_ok_iff h0 (.inl rfl),
        numeral_plain_iff (fun h => hm cs (h ▸ rfl)) (fun h => hp cs (h ▸ rfl)), and_assoc]

/-! ## Written numbers -/

theorem digits_toDigits (n : Nat) : Digits (Nat.toDigits 10 n) :=
  ⟨Nat.toDigits_ne_nil, fun _ hc => Nat.isDigit_of_mem_toDigits (by decide) (by decide) hc⟩

theorem digitsValue_toDigits (n : Nat) : digitsValue (Nat.toDigits 10 n) = n :=
  Nat.ofDigitChars_toDigits (by decide) (by decide)

/-- An integer is written by its decimal digits, after a minus sign when it is negative. -/
theorem numeral_toString (v : Int) : Numeral (toString v).toList v := by
  cases v with
  | ofNat n =>
    have h := Numeral.plain (digits_toDigits n)
    rw [digitsValue_toDigits] at h
    have ht : (toString (Int.ofNat n)).toList = Nat.toDigits 10 n := by
      show (Nat.repr n).toList = _
      rw [Nat.repr_eq_ofList_toDigits, String.toList_ofList]
    rw [ht]
    exact h
  | negSucc n =>
    have h := Numeral.minus (digits_toDigits (n + 1))
    rw [digitsValue_toDigits] at h
    have ht : (toString (Int.negSucc n)).toList = '-' :: Nat.toDigits 10 (n + 1) := by
      show ("-" ++ Nat.repr (n + 1)).toList = _
      simp [Nat.repr_eq_ofList_toDigits]
    rw [ht]
    exact h

end Semispace.Text

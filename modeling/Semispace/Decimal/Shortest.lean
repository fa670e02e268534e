import Semispace.Decimal.Binary
/-!
# The shortest decimal that reads back

Of the decimals that round to a given double, the shortest is the point of the coarsest power-of-ten
grid that has one, and of two such points the one nearer to the double. The search runs over grids
from coarse to fine in exact integer arithmetic; every decimal it finds passes `readsBack`.
-/

namespace Semispace.Decimal

/-- A decimal, `digits * 10 ^ exponent`. -/
structure Dec where
  digits : Nat
  exponent : Int
  deriving DecidableEq, Repr

/-- Whether a decimal rounds to the double `m * 2 ^ q`. The reals that do so reach half way to each
neighbour, and the two ends belong to them when `m` is even. -/
def readsBack (m : Nat) (q : Int) (narrow : Bool) (d : Dec) : Bool :=
  let low := compareScaled d.digits d.exponent (if narrow then 4 * m - 1 else 4 * m - 2) (q - 2)
  let high := compareScaled d.digits d.exponent (4 * m + 2) (q - 2)
  let ends := m % 2 == 0
  (low == .gt || (ends && low == .eq)) && (high == .lt || (ends && high == .eq))

/-- The integer part of `m * 2 ^ q / 10 ^ i`. -/
def floorOnGrid (m : Nat) (q i : Int) : Nat :=
  m * Nat.pow 2 q.toNat * Nat.pow 10 (-i).toNat / (Nat.pow 2 (-q).toNat * Nat.pow 10 i.toNat)

/-- The point of the grid `10 ^ i` that reads back, if there is one: of the two neighbours of the
double the nearer, and the even one when they are equally near. -/
def onGrid (m : Nat) (q : Int) (narrow : Bool) (i : Int) : Option Dec :=
  let c := floorOnGrid m q i
  match readsBack m q narrow ⟨c, i⟩, readsBack m q narrow ⟨c + 1, i⟩ with
  | false, false => none
  | true, false => some ⟨c, i⟩
  | false, true => some ⟨c + 1, i⟩
  | true, true =>
    match compareScaled (2 * c + 1) i (2 * m) q with
    | .gt => some ⟨c, i⟩
    | .lt => some ⟨c + 1, i⟩
    | .eq => some ⟨c + c % 2, i⟩

/-- The first hit on the `n` grids from `10 ^ i` down. -/
def searchGrids (m : Nat) (q : Int) (narrow : Bool) : Nat → Int → Option Dec
  | 0, _ => none
  | n + 1, i => (onGrid m q narrow i).or (searchGrids m q narrow n (i - 1))

/-- The exact value as a decimal. -/
def exactDec (m : Nat) (q : Int) : Dec :=
  if 0 ≤ q then ⟨m * Nat.pow 2 q.toNat, 0⟩ else ⟨m * Nat.pow 5 (-q).toNat, q⟩

/-- The shortest decimal that reads back as `m * 2 ^ q`. The search starts above the value, at a
power of ten estimated from the binary logarithm, and covers seventeen digits. -/
def shortest (m : Nat) (q : Int) (narrow : Bool) : Dec :=
  let top := ((m.log2 : Int) + q) * 30103 / 100000 + 2
  (searchGrids m q narrow 21 top).getD (exactDec m q)

theorem readsBack_of_onGrid {m : Nat} {q i : Int} {narrow : Bool} {d : Dec}
    (h : onGrid m q narrow i = some d) : readsBack m q narrow d = true := by
  unfold onGrid at h
  dsimp only at h
  split at h
  · cases h
  · next h1 _ => cases h; exact h1
  · next _ h2 => cases h; exact h2
  · next h1 h2 =>
    split at h
    · cases h; exact h1
    · cases h; exact h2
    · cases h
      rcases Nat.mod_two_eq_zero_or_one (floorOnGrid m q i) with hc | hc <;> simp_all

/-- Every decimal the search finds rounds to the double. -/
theorem readsBack_of_searchGrids {m : Nat} {q : Int} {narrow : Bool} {d : Dec} :
    ∀ {n : Nat} {i : Int}, searchGrids m q narrow n i = some d → readsBack m q narrow d = true
  | 0, _, h => by cases h
  | n + 1, i, h => by
    simp only [searchGrids] at h
    rcases Option.or_eq_some_iff.mp h with h' | ⟨_, h'⟩
    · exact readsBack_of_onGrid h'
    · exact readsBack_of_searchGrids h'

end Semispace.Decimal

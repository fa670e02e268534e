import Semispace.Decimal.Binary
/-!
# Decimals with a fixed number of places

The exact value is rounded once, to the nearest multiple of the last place, and a tie goes to the
even neighbour.
-/

namespace Semispace.Decimal

/-- The quotient rounded to the nearest integer, a tie to the even one. -/
def roundQuotient (n d : Nat) : Nat :=
  let k := n / d
  let twice := 2 * (n % d)
  if twice < d then k else if d < twice then k + 1 else k + k % 2

/-- `m * 2 ^ q` in units of the last of `places` decimal places, rounded. -/
def inPlaces (places m : Nat) (q : Int) : Nat :=
  roundQuotient (m * Nat.pow 2 q.toNat * Nat.pow 10 places) (Nat.pow 2 (-q).toNat)

/-- The digits of `n` with a point before the last `places`, and at least one digit before it. -/
def withPoint (places n : Nat) : String :=
  let whole := toString (n / Nat.pow 10 places)
  let part := toString (n % Nat.pow 10 places)
  whole ++ "." ++ String.ofList (List.replicate (places - part.length) '0') ++ part

/-- A double with a fixed number of places; the sign of a value that rounds to zero is kept. -/
def fixed (places : Nat) (x : Float) : String :=
  let sign := if isNegative x then "-" else ""
  match magnitude x with
  | .nan => "NaN"
  | .infinite => sign ++ "inf"
  | .finite m q _ => sign ++ withPoint places (inPlaces places m q)

end Semispace.Decimal

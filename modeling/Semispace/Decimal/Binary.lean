/-!
# Doubles as integers times powers of two

The exact value of a finite double is `m * 2 ^ q` for a natural `m`. All decimal texts are computed
from these two numbers, without floating-point arithmetic.
-/

namespace Semispace.Decimal

/-- The absolute value of a double. -/
inductive Magnitude
  | nan
  | infinite
  /-- `m * 2 ^ q`; `narrow` when the double below is half as far away as the one above. -/
  | finite (m : Nat) (q : Int) (narrow : Bool)
  deriving DecidableEq, Repr

/-- Whether the sign bit is set. -/
def isNegative (x : Float) : Bool :=
  x.toBits >>> 63 == 1

/-- The absolute value of a double, from its exponent and fraction bits. -/
def magnitude (x : Float) : Magnitude :=
  let bits := x.toBits
  let e := ((bits >>> 52) &&& 0x7ff).toNat
  let f := (bits &&& 0xfffffffffffff).toNat
  if e = 0x7ff then if f = 0 then .infinite else .nan
  else if e = 0 then .finite f (-1074) false
  else .finite (0x10000000000000 + f) ((e : Int) - 1075) (f == 0 && e != 1)

/-- Compares `a * 10 ^ i` with `b * 2 ^ j` exactly. -/
def compareScaled (a : Nat) (i : Int) (b : Nat) (j : Int) : Ordering :=
  compare (a * Nat.pow 10 i.toNat * Nat.pow 2 (-j).toNat) (b * Nat.pow 2 j.toNat * Nat.pow 10 (-i).toNat)

end Semispace.Decimal

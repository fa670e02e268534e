import Semispace.Decimal.Shortest
/-!
# Doubles in JSON

A number is written with the digits of its shortest decimal: positionally, with at least one digit
on each side of the point, when the leading digit stands between the fifth decimal place and the
sixteenth digit before the point, and with a signed exponent otherwise. What is not a number is
`null`.
-/

namespace Semispace.Decimal

/-- The least and greatest power of ten of a leading digit written positionally. -/
def plainFrom : Int := -5
@[inherit_doc plainFrom]
def plainTo : Int := 15

private def zeros (n : Nat) : String :=
  String.ofList (List.replicate n '0')

/-- A nonzero decimal laid out as text. -/
def Dec.layout (d : Dec) : String :=
  let ds := Nat.toDigits 10 d.digits
  let lead := (ds.length : Int) - 1 + d.exponent
  if plainFrom ≤ lead ∧ lead ≤ plainTo then
    if 0 ≤ d.exponent then String.ofList ds ++ zeros d.exponent.toNat ++ ".0"
    else if 0 ≤ lead then
      let k := lead.toNat + 1
      String.ofList (ds.take k) ++ "." ++ String.ofList (ds.drop k)
    else "0." ++ zeros (-lead - 1).toNat ++ String.ofList ds
  else
    let part := ds.drop 1
    String.ofList (ds.take 1) ++ (if part.isEmpty then "" else "." ++ String.ofList part) ++ "e" ++
      (if lead < 0 then "-" else "+") ++ toString lead.natAbs

/-- A double as a JSON value. -/
def jsonNumber (x : Float) : String :=
  let sign := if isNegative x then "-" else ""
  match magnitude x with
  | .nan | .infinite => "null"
  | .finite m q narrow =>
    if m = 0 then sign ++ "0.0" else sign ++ (shortest m q narrow).layout

end Semispace.Decimal

/-!
# Reading integers

An integer is an optional sign followed by decimal digits. Digits are taken from the left, and the
value of every leading part has to lie in range: the first digit that takes it out of range is
reported as such even when a character that is no digit follows.
-/

namespace Semispace.Text

/-- Why a text is not an integer of the range asked for. -/
inductive IntegerFault
  | empty
  | invalidDigit
  | tooLarge
  | tooSmall
  deriving DecidableEq, Repr

/-- The wording of a fault. -/
def IntegerFault.message : IntegerFault → String
  | empty => "cannot parse integer from empty string"
  | invalidDigit => "invalid digit found in string"
  | tooLarge => "number too large to fit in target type"
  | tooSmall => "number too small to fit in target type"

/-- The value of a decimal digit. -/
def digit? (c : Char) : Option Nat :=
  if '0' ≤ c ∧ c ≤ '9' then some (c.toNat - '0'.toNat) else none

/-- The bounds of a range of integers. -/
structure IntegerRange where
  low : Int
  high : Int

/-- The signed words of 64 bits. -/
def IntegerRange.signed64 : IntegerRange := ⟨-0x8000000000000000, 0x7fffffffffffffff⟩

/-- The unsigned words of 64 bits. -/
def IntegerRange.unsigned64 : IntegerRange := ⟨0, 0xffffffffffffffff⟩

/-- Reads the digits that follow a part of value `acc`; `sign` is `1` or `-1`. -/
def readDigits (range : IntegerRange) (sign acc : Int) : List Char → Except IntegerFault Int
  | [] => .ok acc
  | c :: cs =>
    match digit? c with
    | none => .error .invalidDigit
    | some d =>
      let next := 10 * acc + sign * d
      if range.high < next then .error .tooLarge
      else if next < range.low then .error .tooSmall
      else readDigits range sign next cs

/-- Reads what follows a sign, which has to begin with a digit. -/
def readSignedDigits (range : IntegerRange) (sign : Int) : List Char → Except IntegerFault Int
  | [] => .error .invalidDigit
  | cs => readDigits range sign 0 cs

/-- Reads a signed integer of 64 bits. -/
def readSigned : List Char → Except IntegerFault Int
  | [] => .error .empty
  | '-' :: cs => readSignedDigits .signed64 (-1) cs
  | '+' :: cs => readSignedDigits .signed64 1 cs
  | cs => readDigits .signed64 1 0 cs

/-- Reads an unsigned integer of 64 bits, which takes no minus sign. -/
def readUnsigned : List Char → Except IntegerFault Int
  | [] => .error .empty
  | '+' :: cs => readSignedDigits .unsigned64 1 cs
  | cs => readDigits .unsigned64 1 0 cs

end Semispace.Text

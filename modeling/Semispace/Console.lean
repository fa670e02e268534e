import Semispace.Report.Notice
import Semispace.Text.Blank
import Semispace.Text.Utf8
/-!
# Integers on the console

An integer is printed on a line of its own. Reading takes one line whatever it holds; a line that is
not an integer, or not even text, counts as zero and is reported.
-/

namespace Semispace.Console

/-- The line an integer is printed as. -/
def printed (v : Int64) : String :=
  toString v.toInt ++ "\n"

/-- The byte that ends a line. -/
def newline : UInt8 := 10

/-- The first line with the byte that ends it, and what follows. -/
def splitLine (bs : List UInt8) : List UInt8 × List UInt8 :=
  let rest := bs.dropWhile (· != newline)
  (bs.takeWhile (· != newline) ++ rest.take 1, rest.drop 1)

/-- The integer on a line, or the reason why there is none. -/
def parseLine (line : List UInt8) : Except Notice Int64 :=
  match line with
  | [] => .error .endOfInput
  | _ =>
    match Text.decodeUtf8 line with
    | none => .error .lineNotText
    | some cs =>
      match Text.readSigned (Text.trim cs) with
      | .ok v => .ok (Int64.ofInt v)
      | .error fault => .error (.lineNotInteger (Text.trim cs) fault)

/-- What reading an integer gives. -/
structure Reading where
  value : Int64
  notice : Option Notice
  /-- The input that is left. -/
  rest : List UInt8

/-- Reads an integer from the next line. -/
def readInt (input : List UInt8) : Reading :=
  let (line, rest) := splitLine input
  match parseLine line with
  | .ok value => ⟨value, none, rest⟩
  | .error notice => ⟨0, some notice, rest⟩

theorem splitLine_append (bs : List UInt8) : (splitLine bs).1 ++ (splitLine bs).2 = bs := by
  rw [splitLine, List.append_assoc, List.take_append_drop, List.takeWhile_append_dropWhile]

/-- Only an empty input has an empty line. -/
theorem splitLine_eq_nil_iff {bs : List UInt8} : (splitLine bs).1 = [] ↔ bs = [] := by
  cases bs with
  | nil => simp [splitLine]
  | cons b bs => by_cases h : b = newline <;> simp [splitLine, h]

end Semispace.Console

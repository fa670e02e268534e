import Semispace.Text.Visible
/-!
# Text quoted inside a message

A piece of input is shown between double quotes. The quote, the backslash and the four common
controls have short escapes, every other hidden character is written by its code point in
hexadecimal, and all else stands for itself.
-/

namespace Semispace.Text

/-- One character inside double quotes. -/
def quotedChar (c : Char) : List Char :=
  if c = '\x00' then ['\\', '0']
  else if c = '\t' then ['\\', 't']
  else if c = '\n' then ['\\', 'n']
  else if c = '\r' then ['\\', 'r']
  else if c = '"' then ['\\', '"']
  else if c = '\\' then ['\\', '\\']
  else if isVisible c then [c]
  else ['\\', 'u', '\x7b'] ++ Nat.toDigits 16 c.toNat ++ ['\x7d']

/-- A text between double quotes, with its hidden characters escaped. -/
def quoted (cs : List Char) : String :=
  String.ofList ('"' :: cs.flatMap quotedChar ++ ['"'])

end Semispace.Text

/-!
# Digits

The values of digits in several bases, and of numbers that are written with them.
-/

namespace AttributeTables.Text

/-- The value of a decimal digit. -/
def decimalDigit? (c : Char) : Option Nat :=
  if c.isDigit then some (c.toNat - '0'.toNat) else none

/-- The value of an octal digit. -/
def octalDigit? (c : Char) : Option Nat := (decimalDigit? c).filter (· < 8)

/-- The value of a binary digit. -/
def binaryDigit? (c : Char) : Option Nat := (decimalDigit? c).filter (· < 2)

/-- The value of a digit in base sixteen. -/
def hexDigit? (c : Char) : Option Nat :=
  if 'a' ≤ c && c ≤ 'f' then some (c.toNat - 'a'.toNat + 10)
  else if 'A' ≤ c && c ≤ 'F' then some (c.toNat - 'A'.toNat + 10)
  else decimalDigit? c

/-- The number with the given digits. -/
def ofDigits (base : Nat) (digits : List Nat) : Nat := digits.foldl (fun n d => base * n + d) 0

/-- The character with the given number, if there is one. -/
def charOfCode? (n : Nat) : Option Char :=
  if n.isValidChar then some (Char.ofNat n) else none

end AttributeTables.Text

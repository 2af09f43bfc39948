/-!
# String literals of C

The characters of a string literal. A character that would end the literal or its line is written
as an escape; the escapes by number always have three octal digits, so that no digit that follows
can be read as part of them.
-/

namespace AttributeTables.Text

/-- The number in base eight, padded to three digits. -/
def octal3 (n : Nat) : List Char :=
  [Nat.digitChar (n / 64 % 8), Nat.digitChar (n / 8 % 8), Nat.digitChar (n % 8)]

/-- The character is a control character of ASCII. -/
def isAsciiControl (c : Char) : Bool := c.toNat < 32 || c.toNat == 127

/-- One character of a literal. -/
def literalChar (c : Char) : List Char :=
  if c == '"' then ['\\', '"']
  else if c == '\\' then ['\\', '\\']
  else if c == '\n' then ['\\', 'n']
  else if c == '\t' then ['\\', 't']
  else if isAsciiControl c then '\\' :: octal3 c.toNat
  else [c]

/-- The inside of the literal that denotes the characters. -/
def literalChars (cs : List Char) : List Char := cs.flatMap literalChar

/-- The inside of the literal that denotes the text. -/
def literal (s : String) : String := String.ofList (literalChars s.toList)

end AttributeTables.Text

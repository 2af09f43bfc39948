import AttributeTables.Text.Printable

/-!
# Quoted texts

A text in double quotes, with everything that would be hard to see in it written as an escape.
-/

namespace AttributeTables.Text

/-- The digits of a number in base sixteen, without leading zeros. -/
def hex (n : Nat) : String := String.ofList (Nat.toDigits 16 n)

/-- A character by its number. -/
def numbered (c : Char) : String := "\\u\x7b" ++ hex c.toNat ++ "\x7d"

/-- The character is visible by itself, so it is written as it is. -/
def standsAlone (c : Char) : Bool := isPrintable c && !isExtending c

/-- A character inside quotes. -/
def quotedChar (c : Char) : String :=
  if c == '"' then "\\\""
  else if c == '\\' then "\\\\"
  else if c == '\t' then "\\t"
  else if c == '\r' then "\\r"
  else if c == '\n' then "\\n"
  else if c == '\x00' then "\\0"
  else if standsAlone c then c.toString
  else numbered c

/-- The text in quotes, as records and messages show it. -/
def quoted (s : String) : String := "\"" ++ String.join (s.toList.map quotedChar) ++ "\""

end AttributeTables.Text

import AttributeTables.Text.Digits
import AttributeTables.Text.Pieces
import AttributeTables.Toml.Tree

/-!
# Scalars without quotes

Booleans, numbers, dates and times.
-/

namespace AttributeTables.Toml

open Text (decimalDigit? octalDigit? binaryDigit? hexDigit? ofDigits)

/-! ## Digits -/

/-- The digits of a number, one at least. An underscore may stand between two digits; `after` says
that a digit came right before. -/
def digits? (digit? : Char → Option Nat) (after : Bool) : List Char → Option (List Nat)
  | [] => if after then some [] else none
  | c :: cs =>
    if c == '_' then
      if after then digits? digit? false cs else none
    else
      match digit? c with
      | some d => (digits? digit? true cs).map (d :: ·)
      | none => none

/-- A number in the given base. -/
def natural? (base : Nat) (digit? : Char → Option Nat) (cs : List Char) : Option Nat :=
  (digits? digit? false cs).map (ofDigits base)

/-- The digits of a decimal number without a zero in front. -/
def wholeDigits? (cs : List Char) : Option (List Nat) :=
  match digits? decimalDigit? false cs with
  | some (0 :: _ :: _) => none
  | result => result

/-! ## Numbers -/

/-- A sign, true for minus, and the rest. -/
def splitSign : List Char → Option Bool × List Char
  | '+' :: cs => (some false, cs)
  | '-' :: cs => (some true, cs)
  | cs => (none, cs)

/-- The number with its sign. -/
def signed (negative : Bool) (n : Nat) : Int := if negative then -(n : Int) else n

/-- The exponent of a number: a sign and digits, zeros in front allowed. -/
def exponent? (cs : List Char) : Option Int :=
  let (sign, digits) := splitSign cs
  (natural? 10 decimalDigit? digits).map (signed (sign.getD false))

/-- The part of a number before its exponent: an integer, and the digits after the point. -/
def mantissa? (cs : List Char) : Option (List Nat × List Nat) :=
  match cs.span (· != '.') with
  | (whole, []) => (wholeDigits? whole).map fun w => (w, [])
  | (whole, _ :: fraction) =>
    match wholeDigits? whole, digits? decimalDigit? false fraction with
    | some w, some f => some (w, f)
    | _, _ => none

/-- A decimal number with a fraction or an exponent. -/
def float? (negative : Bool) (cs : List Char) : Option Scalar :=
  let (number, power) := cs.span fun c => c != 'e' && c != 'E'
  match mantissa? number, (if power.isEmpty then some 0 else exponent? (power.drop 1)) with
  | some (whole, fraction), some e =>
    some (.float (.finite negative (ofDigits 10 (whole ++ fraction)) (e - (fraction.length : Int))))
  | _, _ => none

/-- A part of an integer after an underscore. The last part only has to begin well. -/
def isPart (last : Bool) (cs : List Char) : Bool :=
  match cs with
  | [] => false
  | c :: _ => (hexDigit? c).isSome && (last || (cs.getLast?.bind hexDigit?).isSome)

/-- An integer with underscores. Only what stands around the underscores is checked, so it may turn
out to be unreadable. The digits before the first one may be missing after a sign. -/
def grouped? (sign : Option Bool) (cs : List Char) : Option Scalar :=
  match Text.pieces '_' cs with
  | [] => none
  | first :: parts =>
    let digits := first ++ parts.flatten
    if (first.isEmpty && sign.isNone) || first.head? == some '0' then none
    else if !(parts.dropLast.all (isPart false) && parts.getLast?.all (isPart true)) then none
    else if digits.all Char.isDigit then
      some (.integer (signed (sign.getD false) (ofDigits 10 (digits.filterMap decimalDigit?))))
    else some .unreadable

/-- A decimal number. What follows its first digits decides how it is read. -/
def decimal? (sign : Option Bool) (cs : List Char) : Option Scalar :=
  let negative := sign.getD false
  match cs.dropWhile Char.isDigit with
  | [] => (wholeDigits? cs).map fun digits => .integer (signed negative (ofDigits 10 digits))
  | c :: rest =>
    if rest.contains ' ' then none
    else if (c :: rest).any fun c => c == '.' || c == 'e' || c == 'E' then float? negative cs
    else if c == '_' then grouped? sign cs
    else none

/-- An integer in another base. Without any digits it is unreadable. -/
def based? (base : Nat) (digit? : Char → Option Nat) (cs : List Char) : Option Scalar :=
  if cs.isEmpty then some .unreadable
  else (natural? base digit? cs).map fun n => .integer n

/-- A number. Only decimal numbers have a sign. -/
def number? (cs : List Char) : Option Scalar :=
  match splitSign cs with
  | (sign, ['i', 'n', 'f']) => some (.float (.infinite (sign.getD false)))
  | (_, ['n', 'a', 'n']) => some (.float .notANumber)
  | (none, '0' :: 'x' :: digits) => based? 16 hexDigit? digits
  | (none, '0' :: 'o' :: digits) => based? 8 octalDigit? digits
  | (none, '0' :: 'b' :: digits) => based? 2 binaryDigit? digits
  | (sign, digits) => decimal? sign digits

/-! ## Dates and times -/

/-- A number of a fixed count of digits, and the rest. -/
def fixed? (count : Nat) (cs : List Char) : Option (Nat × List Char) :=
  let front := cs.take count
  if front.length == count && front.all Char.isDigit then
    some (ofDigits 10 (front.filterMap decimalDigit?), cs.drop count)
  else none

/-- The rest after a character. -/
def after? (c : Char) : List Char → Option (List Char)
  | d :: cs => if c == d then some cs else none
  | [] => none

/-- The year has a 29th of February. -/
def isLeap (year : Nat) : Bool := year % 4 == 0 && (year % 100 != 0 || year % 400 == 0)

/-- The number of days of a month. -/
def daysOf (year month : Nat) : Nat :=
  if month == 2 then (if isLeap year then 29 else 28)
  else if month == 4 || month == 6 || month == 9 || month == 11 then 30
  else 31

/-- The rest after a date. -/
def afterDate? (cs : List Char) : Option (List Char) := do
  let (year, cs) ← fixed? 4 cs
  let cs ← after? '-' cs
  let (month, cs) ← fixed? 2 cs
  let cs ← after? '-' cs
  let (day, cs) ← fixed? 2 cs
  guard (1 ≤ month && month ≤ 12 && 1 ≤ day && day ≤ daysOf year month)
  return cs

/-- The rest after an hour and a minute. -/
def afterClock? (cs : List Char) : Option (List Char) := do
  let (hour, cs) ← fixed? 2 cs
  let cs ← after? ':' cs
  let (minute, cs) ← fixed? 2 cs
  guard (hour ≤ 23 && minute ≤ 59)
  return cs

/-- The rest after a time. Seconds, and the fraction of a second, may be left out. -/
def afterTime? (cs : List Char) : Option (List Char) := do
  let cs ← afterClock? cs
  match cs with
  | ':' :: cs =>
    let (second, cs) ← fixed? 2 cs
    guard (second ≤ 60)
    match cs with
    | '.' :: cs =>
      let (fraction, rest) := cs.span Char.isDigit
      guard (!fraction.isEmpty)
      return rest
    | _ => return cs
  | _ => return cs

/-- The rest is a distance from universal time, or nothing. -/
def isOffset : List Char → Bool
  | [] | ['Z'] | ['z'] => true
  | '+' :: cs | '-' :: cs => afterClock? cs == some []
  | _ => false

/-- The text is a date, a time, or both. -/
def isMoment (cs : List Char) : Bool :=
  match afterDate? cs with
  | some [] => true
  | some (c :: rest) =>
    (c == 'T' || c == 't' || c == ' ') &&
      match afterTime? rest with
      | some rest => isOffset rest
      | none => false
  | none => afterTime? cs == some []

/-! ## Scalars -/

/-- A character of a scalar without quotes: what means something in a document ends it. -/
def isScalarChar (c : Char) : Bool :=
  !(c == ' ' || c == '\t' || c == '\n' || c == '\r' || c == '#' || c == '=' || c == ',' ||
    c == '[' || c == ']' || c == '\x7b' || c == '\x7d')

/-- The characters begin with more of a scalar. -/
def continues (cs : List Char) : Bool :=
  cs.head?.any fun c => isScalarChar c && c != '"' && c != '\'' && c != '.'

/-- The scalar that the text denotes. -/
def scalar? (cs : List Char) : Option Scalar :=
  if cs == ['t', 'r', 'u', 'e'] then some (.boolean true)
  else if cs == ['f', 'a', 'l', 's', 'e'] then some (.boolean false)
  else if isMoment cs then some .moment
  else number? cs

/-- Takes the text of a scalar from the front: runs of its characters with blanks between them. The
first argument only bounds their number. -/
def splitRuns : List Char → List Char → List Char × List Char
  | [], cs => ([], cs)
  | _ :: fuel, cs =>
    let (run, rest) := cs.span isScalarChar
    let (blanks, more) := rest.span fun c => c == ' ' || c == '\t'
    if !blanks.isEmpty && continues more then
      let (tail, rest) := splitRuns fuel more
      (run ++ blanks ++ tail, rest)
    else (run, rest)

/-- Takes the text of a scalar from the front. -/
def splitScalar (cs : List Char) : List Char × List Char := splitRuns (' ' :: cs) cs

end AttributeTables.Toml

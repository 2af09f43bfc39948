import AttributeTables.Decimal.Binary

/-!
# Shortest decimals

The fewest digits that are rounded to a given binary number, and of those the nearest to it.
-/

namespace AttributeTables.Decimal

/-- The number `digits * 10 ^ exponent`. -/
structure Numeral where
  digits : Nat
  exponent : Int
  deriving DecidableEq

/-- The first fraction is less than the second one. -/
def fractionLess (a b : Nat × Nat) : Bool := a.1 * b.2 < b.1 * a.2

namespace Numeral

/-- The number as a fraction. -/
def fraction (d : Numeral) : Nat × Nat :=
  (scaledNum d.digits 10 d.exponent, scaledDen 10 d.exponent)

/-- The same number without a zero at its end. -/
def trim (d : Numeral) : Numeral :=
  if d.digits % 10 == 0 then ⟨d.digits / 10, d.exponent + 1⟩ else d

end Numeral

namespace Binary

/-- A quarter of the significand's unit, `n` times. -/
def quarters (b : Binary) (n : Nat) : Nat × Nat :=
  (scaledNum n 2 b.exponent, 4 * scaledDen 2 b.exponent)

/-- The number as a fraction. -/
def fraction (b : Binary) : Nat × Nat := b.quarters (4 * b.significand)

/-- Half way to the next smaller number, which is nearer at a power of two. -/
def lowerEnd (b : Binary) : Nat × Nat :=
  if b.significand == leastSignificand && minExponent < b.exponent then
    b.quarters (4 * b.significand - 1)
  else b.quarters (4 * b.significand - 2)

/-- Half way to the next larger number. -/
def upperEnd (b : Binary) : Nat × Nat := b.quarters (4 * b.significand + 2)

/-- The decimal is rounded to the number. The ends of the interval belong to it if the significand
is even. -/
def accepts (b : Binary) (d : Numeral) : Bool :=
  let x := d.fraction
  if b.significand % 2 == 0 then !fractionLess x b.lowerEnd && !fractionLess b.upperEnd x
  else fractionLess b.lowerEnd x && fractionLess x b.upperEnd

/-- The exponent of the first decimal digit of a fraction that is not zero. -/
def leadingExponent (x : Nat × Nat) : Int :=
  if x.2 ≤ x.1 then ((Nat.toDigits 10 (x.1 / x.2)).length : Int) - 1
  else -(((List.range 400).find? fun j => x.2 ≤ x.1 * Nat.pow 10 j).getD 0 : Int)

/-- The two neighbours of the number among the decimals with a given last digit's exponent. -/
def neighbours (b : Binary) (e : Int) : Numeral × Numeral :=
  let x := b.fraction
  let below := scaledNum x.1 10 (-e) / scaledNum x.2 10 e
  (⟨below, e⟩, ⟨below + 1, e⟩)

/-- The nearer of the neighbours that are rounded to the number; of two equally near ones the one
above. -/
def best? (b : Binary) (e : Int) : Option Numeral :=
  let (low, high) := b.neighbours e
  match b.accepts low, b.accepts high with
  | true, true =>
    let middle := Numeral.fraction ⟨2 * low.digits + 1, e⟩
    if fractionLess (2 * b.fraction.1, b.fraction.2) middle then some low else some high
  | true, false => some low
  | false, true => some high
  | false, false => none

/-- The shortest decimal that is rounded to the number. Seventeen digits are always enough. Only
nine, the largest single digit, can have a neighbour that ends in a zero. -/
def shortest (b : Binary) : Numeral :=
  if b.significand == 0 then ⟨0, 0⟩
  else
    let lead := leadingExponent b.fraction
    (((List.range 17).findSome? fun (n : Nat) => b.best? (lead - n)).getD ⟨0, 0⟩).trim

end Binary

/-- The decimal in positional notation, with at least one digit on both sides of the point. -/
def Numeral.positional (d : Numeral) : String :=
  let cs := Nat.toDigits 10 d.digits
  let zeros (n : Nat) : List Char := List.replicate n '0'
  String.ofList <|
    if 0 ≤ d.exponent then cs ++ zeros d.exponent.toNat ++ ['.', '0']
    else
      let places := (-d.exponent).toNat
      let cs := zeros (places + 1 - cs.length) ++ cs
      cs.take (cs.length - places) ++ '.' :: cs.drop (cs.length - places)

end AttributeTables.Decimal

/-!
# Decimals as binary numbers of 64 bits

A decimal is rounded to the nearest number with 53 binary digits, a tie to the even one. The
computation is exact: every quantity is a fraction of natural numbers.
-/

namespace AttributeTables.Decimal

/-- The fraction, rounded to the nearest natural number, a tie to the even one. -/
def roundHalfEven (num den : Nat) : Nat :=
  let q := num / den
  let r := 2 * (num % den)
  if den < r || (den == r && q % 2 == 1) then q + 1 else q

/-- The numerator of `n * b ^ e`. -/
def scaledNum (n b : Nat) (e : Int) : Nat := n * b.pow e.toNat

/-- The denominator of `n * b ^ e`. -/
def scaledDen (b : Nat) (e : Int) : Nat := b.pow (-e).toNat

/-- The number `significand * 2 ^ exponent`. -/
structure Binary where
  significand : Nat
  exponent : Int
  deriving DecidableEq

namespace Binary

/-- The number of binary digits of a significand. -/
def precision : Nat := 53

/-- The smallest exponent. -/
def minExponent : Int := -1074

/-- The largest exponent. -/
def maxExponent : Int := 971

/-- Zero. -/
def zero : Binary := ⟨0, minExponent⟩

/-- The exponent for which the fraction has 53 digits, or one more than it. -/
def estimate (num den : Nat) : Int :=
  max minExponent ((num.log2 : Int) - (den.log2 : Int) - (precision : Int) + 1)

/-- The smallest significand with all its digits. -/
def leastSignificand : Nat := Nat.pow 2 (precision - 1)

/-- The fraction, rounded at an exponent. -/
def roundAt (num den : Nat) (e : Int) : Nat :=
  roundHalfEven (scaledNum num 2 (-e)) (scaledNum den 2 e)

/-- The nearest number to a fraction; `none` if it is too large. -/
def ofFraction? (num den : Nat) : Option Binary :=
  let e := estimate num den
  -- the estimate may be one too large
  let e := if scaledNum num 2 (-e) < leastSignificand * scaledNum den 2 e then
    max minExponent (e - 1) else e
  let m := roundAt num den e
  let b : Binary := if m == 2 * leastSignificand then ⟨leastSignificand, e + 1⟩ else ⟨m, e⟩
  if maxExponent < b.exponent then none else some b

/-- The nearest number to `digits * 10 ^ exponent`; `none` if it is too large. Exponents far out of
range are told by the number of digits, without a power of ten. -/
def ofDecimal? (digits : Nat) (exponent : Int) : Option Binary :=
  if digits == 0 then some zero
  else
    let magnitude := exponent + ((Nat.toDigits 10 digits).length : Int)
    if magnitude < -330 then some zero
    else if 310 < magnitude then none
    else ofFraction? (scaledNum digits 10 exponent) (scaledDen 10 exponent)

end Binary

end AttributeTables.Decimal

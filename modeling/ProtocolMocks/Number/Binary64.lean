/-!
# Numbers of the binary64 format

A finite number is a natural number of at most 53 bits times a power of two, with a sign of its own
so that zero has two forms. `ofDecimal` rounds a decimal to the nearest such number in exact
arithmetic; a decimal half way between two goes to the one with the even significand.
-/

namespace ProtocolMocks

/-- A number of the binary64 format. -/
inductive Binary64 where
  /-- The number `significand * 2 ^ exponent`, negated if asked for. -/
  | finite (negative : Bool) (significand : Nat) (exponent : Int)
  | infinite (negative : Bool)
  | nan
deriving DecidableEq, Repr

namespace Binary64

/-- The number of bits of a full significand. -/
def precision : Nat := 53

/-- The exponent of the smallest positive number. -/
def minExponent : Int := -1074

/-- The exponent of the largest finite number. -/
def maxExponent : Int := 971

/-- A quotient rounded to the nearest natural number, a half to the even one. -/
def roundHalfEven (num den : Nat) : Nat :=
  let quotient := num / den
  match compare (2 * (num % den)) den with
  | .lt => quotient
  | .gt => quotient + 1
  | .eq => quotient + quotient % 2

/-- A positive quotient times `base ^ exponent` as a quotient. -/
def scaleBy (base : Nat) (exponent : Int) (q : Nat × Nat) : Nat × Nat :=
  if 0 ≤ exponent then (q.1 * Nat.pow base exponent.toNat, q.2)
  else (q.1, q.2 * Nat.pow base (-exponent).toNat)

/-- The exponent at which the significand of a positive quotient has full precision, or the least
exponent if that is larger. -/
def exponentOf (q : Nat × Nat) : Int :=
  let guess : Int := (Nat.log2 q.1 : Int) - Nat.log2 q.2 - precision
  let scaled := scaleBy 2 (-guess) q
  max minExponent (if Nat.pow 2 precision * scaled.2 ≤ scaled.1 then guess + 1 else guess)

/-- The number nearest to a positive quotient. -/
def ofQuotient (negative : Bool) (q : Nat × Nat) : Binary64 :=
  let exponent := exponentOf q
  let scaled := scaleBy 2 (-exponent) q
  let rounded := roundHalfEven scaled.1 scaled.2
  let (significand, exponent) :=
    if rounded = Nat.pow 2 precision then (Nat.pow 2 (precision - 1), exponent + 1)
    else (rounded, exponent)
  if maxExponent < exponent then infinite negative else finite negative significand exponent

/-- Zero, with a sign. -/
def zero (negative : Bool) : Binary64 := finite negative 0 minExponent

/-- The number nearest to `digits * 10 ^ exponent`. Decimals far outside the range of the format
are told apart by their number of digits, so no large power is computed for them. -/
def ofDecimal (negative : Bool) (digits : Nat) (exponent : Int) : Binary64 :=
  if digits = 0 then zero negative
  else
    let magnitude : Int := (Nat.toDigits 10 digits).length + exponent
    if 310 < magnitude then infinite negative
    else if magnitude < -330 then zero negative
    else ofQuotient negative (scaleBy 10 exponent (digits, 1))

/-- Whether the number is a zero of either sign. -/
def isZero : Binary64 → Bool
  | finite _ significand _ => significand == 0
  | _ => false

end Binary64

end ProtocolMocks

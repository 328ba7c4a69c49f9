import ProtocolMocks.Number.Binary64

/-!
# Shortest decimal texts

The text of a number has the fewest digits that read back as the same number, and of the decimals
with that many digits the nearest one; of two equally near the larger. It is written in positional
form, however large or small the number is.

Decimals are compared with the ends of the interval of quotients that round to the number. The ends
belong to it if the significand is even. Below a power of two the neighbours are half as far away.
-/

namespace ProtocolMocks.Binary64

/-- Comparison of two quotients. -/
def quotientLe (a b : Nat × Nat) : Bool := a.1 * b.2 ≤ b.1 * a.2

/-- Strict comparison of two quotients. -/
def quotientLt (a b : Nat × Nat) : Bool := a.1 * b.2 < b.1 * a.2

/-- The lower end of the interval that rounds to `significand * 2 ^ exponent`. -/
def lowerEnd (significand : Nat) (exponent : Int) : Nat × Nat :=
  if significand = Nat.pow 2 (precision - 1) ∧ minExponent < exponent then
    scaleBy 2 (exponent - 2) (4 * significand - 1, 1)
  else scaleBy 2 (exponent - 1) (2 * significand - 1, 1)

/-- The upper end of the interval that rounds to `significand * 2 ^ exponent`. -/
def upperEnd (significand : Nat) (exponent : Int) : Nat × Nat :=
  scaleBy 2 (exponent - 1) (2 * significand + 1, 1)

/-- Whether a quotient rounds to `significand * 2 ^ exponent`. -/
def readsBack (significand : Nat) (exponent : Int) (q : Nat × Nat) : Bool :=
  let lower := lowerEnd significand exponent
  let upper := upperEnd significand exponent
  if significand % 2 = 0 then quotientLe lower q && quotientLe q upper
  else quotientLt lower q && quotientLt q upper

/-- The exponent of the leading decimal digit of a positive quotient. -/
def leadingPlace (q : Nat × Nat) : Int :=
  let guess : Int := ((Nat.toDigits 10 q.1).length : Int) - (Nat.toDigits 10 q.2).length
  if quotientLe (scaleBy 10 guess (1, 1)) q then guess else guess - 1

/-- The decimal `digits * 10 ^ place` nearest to a number among those with a given last place, if
it reads back as the number. -/
def decimalAt? (significand : Nat) (exponent place : Int) : Option Nat :=
  let value := scaleBy 2 exponent (significand, 1)
  let scaled := scaleBy 10 (-place) value
  let below := scaled.1 / scaled.2
  let fits (digits : Nat) : Bool :=
    readsBack significand exponent (scaleBy 10 place (digits, 1))
  let aboveNearer : Bool := scaled.2 ≤ 2 * (scaled.1 % scaled.2)
  match fits below, fits (below + 1) with
  | true, true => some (if aboveNearer then below + 1 else below)
  | true, false => some below
  | false, true => some (below + 1)
  | false, false => none

/-- The first decimal that reads back when digits are added one by one after a place. -/
def shortestFrom (significand : Nat) (exponent : Int) : Nat → Int → Nat × Int
  | 0, place => ((decimalAt? significand exponent place).getD 0, place)
  | fuel + 1, place =>
    match decimalAt? significand exponent place with
    | some digits => (digits, place)
    | none => shortestFrom significand exponent fuel (place - 1)

/-- The shortest decimal that reads back as a positive number: its digits and its last place. The
search starts in front of the leading digit, since the number may lie just below a power of ten;
seventeen digits always suffice. -/
def shortest (significand : Nat) (exponent : Int) : Nat × Int :=
  shortestFrom significand exponent 17 (leadingPlace (scaleBy 2 exponent (significand, 1)) + 1)

/-- The decimal `digits * 10 ^ place` in positional form. -/
def positional (digits : List Char) (place : Int) : List Char :=
  if 0 ≤ place then digits ++ List.replicate place.toNat '0'
  else
    let fraction := (-place).toNat
    if fraction < digits.length then
      digits.take (digits.length - fraction) ++ '.' :: digits.drop (digits.length - fraction)
    else '0' :: '.' :: List.replicate (fraction - digits.length) '0' ++ digits

/-- The text of a number; a zero of negative sign keeps it. -/
def text : Binary64 → String
  | nan => "NaN"
  | infinite negative => if negative then "-inf" else "inf"
  | finite negative significand exponent =>
    let sign := if negative then ['-'] else []
    if significand = 0 then String.ofList (sign ++ ['0'])
    else
      let (digits, place) := shortest significand exponent
      String.ofList (sign ++ positional (Nat.toDigits 10 digits) place)

/-- The text of a number, with a fraction even if it is whole. -/
def textWithFraction (x : Binary64) : String :=
  match x with
  | finite .. => if x.text.toList.contains '.' then x.text else x.text ++ ".0"
  | _ => x.text

end ProtocolMocks.Binary64

import ProtocolMocks.Toml.Quote

/-!
# Numbers of a document

Integers have 64 bits and may be written in base 16, 8 or 2 without a sign. Underscores may stand
between two digits. A number with a fraction or an exponent is rounded to binary64; one too large
for the format is rejected if it is positive and is the negative infinity otherwise.
-/

namespace ProtocolMocks.Toml

/-- The digits after the first; an underscore must be followed by another digit. -/
def readMoreDigits (isDigit : Char → Bool) : Reader (List Char)
  | [] => some ([], [])
  | ['_'] => none
  | '_' :: c :: cs =>
    if isDigit c then (readMoreDigits isDigit cs).map (prepend c) else none
  | c :: cs =>
    if isDigit c then (readMoreDigits isDigit cs).map (prepend c) else some ([], c :: cs)

/-- One or more digits. -/
def readDigits (isDigit : Char → Bool) : Reader (List Char)
  | c :: cs => if isDigit c then (readMoreDigits isDigit cs).map (prepend c) else none
  | [] => none

/-- The number that digits spell in a base. -/
def valueOf (base : Nat) (digits : List Char) : Nat :=
  digits.foldl (fun value c => base * value + (hexValue? c).getD 0) 0

/-- An integer, if it fits into 64 bits. -/
def integer? (n : Int) : Option Value :=
  if Int64.minValue.toInt ≤ n ∧ n ≤ Int64.maxValue.toInt then some (.integer n) else none

/-- An integer in a base other than ten, read after its mark. -/
def readBased (base : Nat) : Reader Value := fun cs => do
  let (digits, cs) ← readDigits (fun c => decide (((hexValue? c).getD base) < base)) cs
  return (← integer? (valueOf base digits), cs)

/-- The integer part of a decimal number: a lone zero, or digits that start with another. -/
def readWhole : Reader (List Char)
  | '0' :: cs => some (['0'], cs)
  | cs => readDigits Char.isDigit cs

/-- The sign at the front, true for a minus. -/
def readSign : List Char → Bool × List Char
  | '+' :: cs => (false, cs)
  | '-' :: cs => (true, cs)
  | cs => (false, cs)

/-- The digits of a fraction, none if there is no point. -/
def readFraction : Reader (List Char)
  | '.' :: cs => readDigits Char.isDigit cs
  | cs => some ([], cs)

/-- An exponent, if there is a mark for one. -/
def readExponent : Reader (Option Int)
  | c :: cs =>
    if c = 'e' ∨ c = 'E' then do
      let (negative, cs) := readSign cs
      let (digits, cs) ← readDigits Char.isDigit cs
      let n : Int := valueOf 10 digits
      return (some (if negative then -n else n), cs)
    else some (none, c :: cs)
  | [] => some (none, [])

/-- The value of a decimal number by its parts. -/
def decimal? (negative : Bool) (whole fraction : List Char) (exponent : Option Int) :
    Option Value :=
  if fraction.isEmpty && exponent.isNone then
    let n : Int := valueOf 10 whole
    integer? (if negative then -n else n)
  else
    match Binary64.ofDecimal negative (valueOf 10 (whole ++ fraction))
        (exponent.getD 0 - fraction.length) with
    | .infinite false => none
    | x => some (.float x)

/-- A decimal number, or one of the special values, read after its sign. -/
def readUnsigned (negative : Bool) : Reader Value
  | 'i' :: 'n' :: 'f' :: cs => some (.float (.infinite negative), cs)
  | 'n' :: 'a' :: 'n' :: cs => some (.float .nan, cs)
  | cs => do
    let (whole, cs) ← readWhole cs
    let (fraction, cs) ← readFraction cs
    let (exponent, cs) ← readExponent cs
    return (← decimal? negative whole fraction exponent, cs)

/-- A number. -/
def readNumber : Reader Value
  | '0' :: 'x' :: cs => readBased 16 cs
  | '0' :: 'o' :: cs => readBased 8 cs
  | '0' :: 'b' :: cs => readBased 2 cs
  | cs =>
    let (negative, cs) := readSign cs
    readUnsigned negative cs

end ProtocolMocks.Toml

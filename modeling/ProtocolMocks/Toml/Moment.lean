import ProtocolMocks.Toml.Numeral

/-!
# Dates and times of a document

A moment is a date, a time, or both with an optional offset. Its normalised text separates date
and time by the letter T, keeps at most nine digits of the second without zeros at the end, and
writes an offset as hours and minutes.
-/

namespace ProtocolMocks.Toml

/-- Exactly so many decimal digits. -/
def readFixed (count : Nat) : Reader Nat := fun cs =>
  let digits := cs.take count
  if digits.length = count ∧ digits.all Char.isDigit then
    some (valueOf 10 digits, cs.drop count)
  else none

/-- A number of two digits in a range. -/
def readTwo (low high : Nat) : Reader Nat := fun cs => do
  let (n, cs) ← readFixed 2 cs
  if low ≤ n ∧ n ≤ high then some (n, cs) else none

/-- One given character. -/
def expect (c : Char) : List Char → Option (List Char)
  | d :: cs => if d = c then some cs else none
  | [] => none

/-- A number with zeros in front. -/
def padded (width n : Nat) : List Char := List.leftpad width '0' (Nat.toDigits 10 n)

/-- How many days a month has. -/
def daysIn (year month : Nat) : Nat :=
  if month = 2 then if year % 4 = 0 ∧ (year % 100 ≠ 0 ∨ year % 400 = 0) then 29 else 28
  else if month ∈ [4, 6, 9, 11] then 30 else 31

/-- A date, as text. -/
def readDate : Reader (List Char) := fun cs => do
  let (year, cs) ← readFixed 4 cs
  let cs ← expect '-' cs
  let (month, cs) ← readTwo 1 12 cs
  let cs ← expect '-' cs
  let (day, cs) ← readTwo 1 31 cs
  if day ≤ daysIn year month then
    some (padded 4 year ++ '-' :: padded 2 month ++ '-' :: padded 2 day, cs)
  else none

/-- The fraction of a second, cut after nine digits, as text. -/
def readSubsecond : Reader (List Char)
  | '.' :: cs =>
    let digits := cs.takeWhile Char.isDigit
    let kept := ((digits.take 9).reverse.dropWhile (· == '0')).reverse
    if digits.isEmpty then none
    else some (if kept.isEmpty then [] else '.' :: kept, cs.drop digits.length)
  | cs => some ([], cs)

/-- A time, as text. -/
def readTime : Reader (List Char) := fun cs => do
  let (hour, cs) ← readTwo 0 23 cs
  let cs ← expect ':' cs
  let (minute, cs) ← readTwo 0 59 cs
  let cs ← expect ':' cs
  let (second, cs) ← readTwo 0 60 cs
  let (fraction, cs) ← readSubsecond cs
  return (padded 2 hour ++ ':' :: padded 2 minute ++ ':' :: padded 2 second ++ fraction, cs)

/-- The offset after a time, as text, if there is one. -/
def readOffset : Reader (List Char)
  | 'Z' :: cs => some (['Z'], cs)
  | 'z' :: cs => some (['Z'], cs)
  | c :: cs =>
    if c = '+' ∨ c = '-' then do
      let (hour, cs) ← readTwo 0 23 cs
      let cs ← expect ':' cs
      let (minute, cs) ← readTwo 0 59 cs
      let sign := if hour = 0 ∧ minute = 0 then '+' else c
      return (sign :: padded 2 hour ++ ':' :: padded 2 minute, cs)
    else some ([], c :: cs)
  | [] => some ([], [])

/-- Whether a date is followed by a time. -/
def startsTime : List Char → Bool
  | c :: cs =>
    (c == 'T' || c == 't' || c == ' ') && ((readTwo 0 23 cs).bind (expect ':' ·.2)).isSome
  | [] => false

/-- A date with the time and offset after it, if any. -/
def readDateTime : Reader Value := fun cs => do
  let (date, cs) ← readDate cs
  if startsTime cs then
    let (time, cs) ← readTime (cs.drop 1)
    let (offset, cs) ← readOffset cs
    return (.moment (String.ofList (date ++ 'T' :: time ++ offset)), cs)
  else return (.moment (String.ofList date), cs)

/-- A time on its own. -/
def readLocalTime : Reader Value := fun cs => do
  let (time, cs) ← readTime cs
  return (.moment (String.ofList time), cs)

/-- A number, date or time: four digits and a hyphen start a date, two and a colon a time. -/
def readScalar : Reader Value := fun cs =>
  if ((readFixed 4 cs).bind (expect '-' ·.2)).isSome then readDateTime cs
  else if ((readFixed 2 cs).bind (expect ':' ·.2)).isSome then readLocalTime cs
  else readNumber cs

end ProtocolMocks.Toml

import HotReload.Datum
import HotReload.Toml.Text

/-!
# Numbers, dates and times

Integers have 64 bits and can be written in four bases. Numbers with a fraction, dates and times are
checked for their form and their range, and nothing more of them is kept.
-/

namespace HotReload.Toml

open Reader

/-- One or more digits, with single underscores between two of them. -/
def digits (isDigit : Char → Bool) : Reader (List Char) := do
  let first ← satisfy isDigit
  let rest ← many do
    discard (optional (char '_'))
    satisfy isDigit
  return first :: rest

/-- The digits of a decimal integer: no zero leads another digit. -/
def decimalDigits : Reader (List Char) :=
  (do
    guard ((← peek?) != some '0')
    digits Char.isDigit) <|> do return [← satisfy (· == '0')]

/-- A sign: true for a minus. -/
def sign : Reader Bool := do
  match ← peek? with
  | some '+' => char '+'; return false
  | some '-' => char '-'; return true
  | _ => return false

/-- An integer that 64 bits hold. -/
def inRange (n : Int) : Reader Datum := do
  guard (decide (Int64.minValue.toInt ≤ n) && decide (n ≤ Int64.maxValue.toInt))
  return .int n

/-- An integer in a base other than ten, given the mark that leads it. -/
def prefixed (mark : String) (base : Nat) : Reader Datum := do
  word mark
  let ds ← digits fun c => (hexValue? c).any (· < base)
  inRange (digitsValue base ds)

/-- An integer. -/
def integer : Reader Datum :=
  prefixed "0x" 16 <|> prefixed "0o" 8 <|> prefixed "0b" 2 <|> do
    let negative ← sign
    let n : Int := digitsValue 10 (← decimalDigits)
    inRange (if negative then -n else n)

/-- The fraction of a number. -/
def fraction : Reader (List Char) := do
  char '.'
  digits Char.isDigit

/-- The exponent of a number. -/
def exponent : Reader Int := do
  discard (satisfy fun c => c == 'e' || c == 'E')
  let negative ← sign
  let n : Int := digitsValue 10 (← digits Char.isDigit)
  return if negative then -n else n

/-- True if `n · 10^e` is too large for a double: it is at least half a unit past the largest
one. -/
def overflows (n : Nat) (e : Int) : Bool :=
  let limit := Nat.pow 2 1024 - Nat.pow 2 970
  if n = 0 then false
  -- the digit counts settle all but a few cases, so no huge power is computed
  else if (Nat.toDigits 10 n).length + e > 310 then true
  else if (Nat.toDigits 10 n).length + e < 300 then false
  else if 0 ≤ e then n * Nat.pow 10 e.toNat ≥ limit
  else n ≥ limit * Nat.pow 10 (-e).toNat

/-- A number with a fraction or an exponent. A positive one must not be too large. -/
def decimal : Reader Datum := do
  let negative ← sign
  let whole ← decimalDigits
  let part ← optional fraction
  -- one of the two has to be there, or it is an integer
  let power ← if part.isSome then optional exponent else some <$> exponent
  let part := part.getD []
  let scaled := digitsValue 10 (whole ++ part)
  guard (negative || !overflows scaled (power.getD 0 - part.length))
  return .other

/-- Infinity, or what is not a number. -/
def special : Reader Datum := do
  discard sign
  word "inf" <|> word "nan"
  return .other

/-- A number of exactly `n` decimal digits between two bounds. -/
def fixedDigits (n low high : Nat) : Reader Nat := do
  let ds ← (List.replicate n ()).mapM fun _ => satisfy Char.isDigit
  let value := digitsValue 10 ds
  guard (low ≤ value && value ≤ high)
  return value

/-- The number of days in a month. -/
def daysIn (year month : Nat) : Nat :=
  if month = 2 then (if year % 4 = 0 ∧ (year % 100 ≠ 0 ∨ year % 400 = 0) then 29 else 28)
  else if month ∈ [4, 6, 9, 11] then 30
  else 31

/-- A date. -/
def date : Reader Unit := do
  let year ← fixedDigits 4 0 9999
  char '-'
  let month ← fixedDigits 2 1 12
  char '-'
  discard (fixedDigits 2 1 (daysIn year month))

/-- A time of day. A minute can have a leap second. -/
def time : Reader Unit := do
  discard (fixedDigits 2 0 23)
  char ':'
  discard (fixedDigits 2 0 59)
  char ':'
  discard (fixedDigits 2 0 60)
  discard (optional do
    char '.'
    discard (run1 Char.isDigit))

/-- The offset of a time from universal time. -/
def offset : Reader Unit :=
  discard (satisfy fun c => c == 'Z' || c == 'z') <|> do
    discard (satisfy fun c => c == '+' || c == '-')
    discard (fixedDigits 2 0 23)
    char ':'
    discard (fixedDigits 2 0 59)

/-- A date, a time, or both. -/
def dateTime : Reader Datum := do
  (do
    date
    discard (optional do
      discard (satisfy fun c => c == 'T' || c == 't' || c == ' ')
      time
      discard (optional offset))) <|> time
  return .other

/-- A number, a date or a time. -/
def number : Reader Datum := dateTime <|> decimal <|> special <|> integer

end HotReload.Toml

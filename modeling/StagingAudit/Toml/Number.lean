import StagingAudit.Toml.Text

/-!
# TOML numbers, dates and times

Digits may be parted by single low lines. A whole number fits into 64 bits with a sign; a decimal
number must not be too great for a double. A date has to exist in the calendar, and a second may be
a leap second.
-/

namespace StagingAudit

namespace Toml

/-! ## Digits -/

/-- Digits of a class, parted by single low lines, without the low lines; there is one at least. -/
def digits? (p : Char → Bool) : Reader (List Char)
  | [] => none
  | c :: cs =>
    if p c then
      match cs with
      | '_' :: rest => (digits? p rest).map (consChar c)
      | d :: rest => if p d then (digits? p (d :: rest)).map (consChar c) else some ([c], d :: rest)
      | [] => some ([c], [])
    else none

/-- The value of decimal digits. -/
def decimalValue (digits : List Char) : Nat := digits.foldl (fun n c => 10 * n + (c.toNat - 48)) 0

/-- A sign, if there is one, and whether it is a minus. -/
def sign : List Char → Bool × List Char
  | '+' :: cs => (false, cs)
  | '-' :: cs => (true, cs)
  | cs => (false, cs)

/-- A decimal whole number without superfluous zeros, as its sign and its digits. -/
def wholeDigits? (cs : List Char) : Option ((Bool × List Char) × List Char) :=
  match sign cs with
  | (minus, '0' :: rest) => some ((minus, ['0']), rest)
  | (minus, rest) => (digits? Char.isDigit rest).map fun (ds, rest) => ((minus, ds), rest)

/-! ## Whole numbers -/

/-- Whether a number fits into 64 bits with a sign. -/
def fits64 (n : Int) : Bool := -0x8000000000000000 ≤ n && n < 0x8000000000000000

/-- A number in a base, given by a class of digits. -/
def radix? (base : Nat) (p : Char → Bool) (cs : List Char) : Option (Int × List Char) := do
  let (ds, rest) ← digits? p cs
  let n : Nat := ds.foldl (fun n c => base * n + (hexValue? c).getD 0) 0
  if fits64 n then return ((n : Int), rest) else none

/-- A whole number. -/
def integer? : Reader Int
  | '0' :: 'x' :: cs => radix? 16 (fun c => (hexValue? c).isSome) cs
  | '0' :: 'o' :: cs => radix? 8 (fun c => '0' ≤ c && c ≤ '7') cs
  | '0' :: 'b' :: cs => radix? 2 (fun c => c == '0' || c == '1') cs
  | cs => do
    let ((minus, ds), rest) ← wholeDigits? cs
    let n : Int := decimalValue ds
    let n := if minus then -n else n
    if fits64 n then return (n, rest) else none

/-! ## Decimal numbers -/

/-- The least number that is too great for a double: half a step above the greatest one. -/
def doubleBound : Nat := Nat.pow 2 1024 - Nat.pow 2 970

/-- Whether `mantissa * 10 ^ exponent` is too great for a double. -/
def isTooGreat (mantissa : Nat) (exponent : Int) : Bool :=
  let size := (Nat.toDigits 10 mantissa).length + exponent
  if mantissa = 0 || size < 300 then false
  else if 320 < size then true
  else if 0 ≤ exponent then doubleBound ≤ mantissa * Nat.pow 10 exponent.toNat
  else doubleBound * Nat.pow 10 (-exponent).toNat ≤ mantissa

/-- The digits after a decimal point, or none. -/
def fraction? : List Char → Option (List Char × List Char)
  | '.' :: cs => digits? Char.isDigit cs
  | _ => none

/-- The exponent of a decimal number. -/
def exponent? : List Char → Option (Int × List Char)
  | c :: cs =>
    if c == 'e' || c == 'E' then
      let (minus, rest) := sign cs
      (digits? Char.isDigit rest).map fun (ds, rest) =>
        let n : Int := decimalValue ds
        (if minus then -n else n, rest)
    else none
  | [] => none

/-- The words for infinity and for no number. -/
def specialFloat? (cs : List Char) : Option (List Char) :=
  match (sign cs).2 with
  | 'i' :: 'n' :: 'f' :: rest => some rest
  | 'n' :: 'a' :: 'n' :: rest => some rest
  | _ => none

/-- The text after a decimal number: whole digits, then a fraction or an exponent or both. -/
def float? (cs : List Char) : Option (List Char) :=
  match wholeDigits? cs with
  | none => specialFloat? cs
  | some ((minus, whole), rest) =>
    let (frac, rest, hasFrac) :=
      match fraction? rest with
      | some (ds, rest) => (ds, rest, true)
      | none => ([], rest, false)
    let (power, rest, hasExp) :=
      match exponent? rest with
      | some (n, rest) => (n, rest, true)
      | none => (0, rest, false)
    let mantissa := decimalValue (whole ++ frac)
    if !hasFrac && !hasExp then none
    else if !minus && isTooGreat mantissa (power - frac.length) then none
    else some rest

/-! ## Dates and times -/

/-- A number of exactly `n` digits. -/
def fixedNumber? (n : Nat) (cs : List Char) : Option (Nat × List Char) :=
  let ds := cs.take n
  if ds.length = n && ds.all Char.isDigit then some (decimalValue ds, cs.drop n) else none

/-- A number of exactly `n` digits between two bounds. -/
def boundedNumber? (n low high : Nat) (cs : List Char) : Option (Nat × List Char) := do
  let (v, rest) ← fixedNumber? n cs
  if low ≤ v && v ≤ high then return (v, rest) else none

/-- A number with zeros in front up to a width. -/
def zeroPadded (width n : Nat) : String :=
  let ds := Nat.toDigits 10 n
  String.ofList (List.replicate (width - ds.length) '0' ++ ds)

/-- The days of a month. -/
def daysInMonth (year month : Nat) : Nat :=
  if month = 2 then
    if year % 4 = 0 && (year % 100 != 0 || year % 400 = 0) then 29 else 28
  else if month = 4 || month = 6 || month = 9 || month = 11 then 30
  else 31

/-- A date, as canonical text. -/
def date? (cs : List Char) : Option (String × List Char) := do
  let (year, cs) ← fixedNumber? 4 cs
  let cs ← Recogniser.literal ['-'] cs
  let (month, cs) ← boundedNumber? 2 1 12 cs
  let cs ← Recogniser.literal ['-'] cs
  let (day, cs) ← boundedNumber? 2 1 (daysInMonth year month) cs
  return (zeroPadded 4 year ++ "-" ++ zeroPadded 2 month ++ "-" ++ zeroPadded 2 day, cs)

/-- The fraction of a second, to nine places and without zeros at its end, as canonical text. -/
def secondFraction (cs : List Char) : Option (String × List Char) :=
  match cs with
  | '.' :: rest =>
    let ds := rest.takeWhile Char.isDigit
    if ds.isEmpty then none
    else
      let shown := dropTrailing (· == '0') (ds.take 9)
      some (if shown.isEmpty then "" else "." ++ String.ofList shown, rest.dropWhile Char.isDigit)
  | _ => some ("", cs)

/-- A time of day, as canonical text. -/
def time? (cs : List Char) : Option (String × List Char) := do
  let (hour, cs) ← boundedNumber? 2 0 23 cs
  let cs ← Recogniser.literal [':'] cs
  let (minute, cs) ← boundedNumber? 2 0 59 cs
  let cs ← Recogniser.literal [':'] cs
  let (second, cs) ← boundedNumber? 2 0 60 cs
  let (fraction, cs) ← secondFraction cs
  return (zeroPadded 2 hour ++ ":" ++ zeroPadded 2 minute ++ ":" ++ zeroPadded 2 second ++ fraction,
    cs)

/-- An offset from universal time, as canonical text; nothing when there is none. -/
def offset? (cs : List Char) : Option (String × List Char) :=
  match cs with
  | 'Z' :: rest => some ("Z", rest)
  | 'z' :: rest => some ("Z", rest)
  | '+' :: rest => zone "+" rest
  | '-' :: rest => zone "-" rest
  | _ => some ("", cs)
where
  /-- hours and minutes after a sign -/
  zone (mark : String) (cs : List Char) : Option (String × List Char) := do
    let (hour, cs) ← boundedNumber? 2 0 23 cs
    let cs ← Recogniser.literal [':'] cs
    let (minute, cs) ← boundedNumber? 2 0 59 cs
    let mark := if hour = 0 ∧ minute = 0 then "+" else mark
    return (mark ++ zeroPadded 2 hour ++ ":" ++ zeroPadded 2 minute, cs)

/-- The time after a date, with its offset, as canonical text. -/
def timeOfDate? (cs : List Char) : Option (String × List Char) :=
  match cs with
  | c :: rest =>
    if c == 'T' || c == 't' || c == ' ' then do
      let (time, rest) ← time? rest
      let (zone, rest) ← offset? rest
      return ("T" ++ time ++ zone, rest)
    else none
  | [] => none

/-- A date, a time or both, as canonical text. -/
def moment? (cs : List Char) : Option (String × List Char) :=
  match date? cs with
  | some (date, rest) =>
    match timeOfDate? rest with
    | some (time, rest) => some (date ++ time, rest)
    | none => some (date, rest)
  | none => time? cs

end Toml

end StagingAudit

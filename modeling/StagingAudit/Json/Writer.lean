import StagingAudit.Json.Basic

/-!
# Writing JSON

The layout of JSON output: two spaces of indentation for each level, one member or item a line, no
space inside an empty list or object. In a text only the quotation mark, the backslash and the
control characters below the space are escaped, five of them by a letter and the others by four
lower-case hexadecimal digits.
-/

namespace StagingAudit

namespace Json

/-! ## Texts and numbers -/

/-- One hexadecimal digit. -/
def hexDigit (n : Nat) : Char := if n < 10 then Char.ofNat (48 + n) else Char.ofNat (87 + n)

/-- A character as it stands between quotation marks. -/
def escapeChar (c : Char) : List Char :=
  if c = '\x22' then ['\\', '\x22']
  else if c = '\\' then ['\\', '\\']
  else if c = '\x08' then ['\\', 'b']
  else if c = '\t' then ['\\', 't']
  else if c = '\n' then ['\\', 'n']
  else if c = '\x0c' then ['\\', 'f']
  else if c = '\r' then ['\\', 'r']
  else if c.toNat < 0x20 then
    ['\\', 'u', '0', '0', hexDigit (c.toNat / 16), hexDigit (c.toNat % 16)]
  else [c]

/-- A text between quotation marks. -/
def quote (s : String) : List Char := '\x22' :: s.toList.flatMap escapeChar ++ ['\x22']

/-- A decimal. Its digits are those of the mantissa; the point stands before the last `places`. -/
def decimal (mantissa : Int) (places : Nat) : List Char :=
  let sign := if mantissa < 0 then ['-'] else []
  let digits := Nat.toDigits 10 mantissa.natAbs
  let padded := List.replicate (places + 1 - digits.length) '0' ++ digits
  let whole := padded.take (padded.length - places)
  if places = 0 then sign ++ digits
  else sign ++ whole ++ '.' :: padded.drop (padded.length - places)

/-- A line break and the indentation of a level. -/
def newline (depth : Nat) : List Char := '\n' :: List.replicate (2 * depth) ' '

/-! ## Values -/

mutual

/-- The text of a value that stands `depth` levels deep. -/
def pretty (depth : Nat) : Json → List Char
  | null => ['n', 'u', 'l', 'l']
  | bool true => ['t', 'r', 'u', 'e']
  | bool false => ['f', 'a', 'l', 's', 'e']
  | number mantissa places => decimal mantissa places
  | string s => quote s
  | array [] => ['[', ']']
  | array (item :: items) =>
    '[' :: newline (depth + 1) ++ pretty (depth + 1) item ++ prettyItems depth items
  | object [] => ['\x7b', '\x7d']
  | object ((name, value) :: members) =>
    '\x7b' :: newline (depth + 1) ++ quote name ++ [':', ' '] ++ pretty (depth + 1) value ++
      prettyMembers depth members

/-- The items of a list after its first one, and the closing bracket. -/
def prettyItems (depth : Nat) : List Json → List Char
  | [] => newline depth ++ [']']
  | item :: items =>
    ',' :: newline (depth + 1) ++ pretty (depth + 1) item ++ prettyItems depth items

/-- The members of an object after its first one, and the closing brace. -/
def prettyMembers (depth : Nat) : List (String × Json) → List Char
  | [] => newline depth ++ ['\x7d']
  | (name, value) :: members =>
    ',' :: newline (depth + 1) ++ quote name ++ [':', ' '] ++ pretty (depth + 1) value ++
      prettyMembers depth members

end

/-- The text of a value. -/
def render (j : Json) : String := String.ofList (pretty 0 j)

end Json

end StagingAudit

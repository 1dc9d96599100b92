import Mathlib.Algebra.Group.Int.Defs
import StagingAudit.Json.Basic

/-!
# The grammar of JSON

`Json.IsText j text` says that `text` is one of the texts of the value `j`. White space stands
between the parts as one likes, a character of a string by itself or escaped, a number with or
without a fraction and an exponent.

A number is told by its digits and not by its size: `1` and `1.0` are two decimals, and an exponent
moves the point. An escape for one half of a surrogate pair stands for nothing, because no character
has that code point.
-/

namespace StagingAudit

namespace Json

/-! ## White space -/

/-- The characters that may stand between the parts of a text. -/
def isGap (c : Char) : Bool := c == ' ' || c == '\t' || c == '\n' || c == '\r'

/-- Whether a text consists of white space, or of nothing. -/
def IsGap (cs : List Char) : Prop := ∀ c ∈ cs, isGap c = true

/-! ## Numbers -/

/-- One or more decimal digits. -/
def IsDigits (ds : List Char) : Prop := ds ≠ [] ∧ ∀ c ∈ ds, c.isDigit = true

/-- Digits before the point. A zero stands in front by itself only. -/
def IsWhole (ds : List Char) : Prop := IsDigits ds ∧ (ds.head? = some '0' → ds = ['0'])

/-- A sign, and how it is written. -/
inductive IsSign : Int → List Char → Prop where
  /-- no sign -/
  | none : IsSign 1 []
  /-- a plus sign -/
  | plus : IsSign 1 ['+']
  /-- a minus sign -/
  | minus : IsSign (-1) ['-']

/-- Digits behind a point, and how they are written. -/
inductive IsFraction : List Char → List Char → Prop where
  /-- no point -/
  | none : IsFraction [] []
  /-- a point and at least one digit -/
  | point {ds : List Char} (hds : IsDigits ds) : IsFraction ds ('.' :: ds)

/-- A power of ten, and how it is written. -/
inductive IsExponent : Int → List Char → Prop where
  /-- no power of ten -/
  | none : IsExponent 0 []
  /-- the letter, a sign and digits -/
  | power {e : Char} {sign : Int} {mark ds : List Char} (he : e = 'e' ∨ e = 'E')
      (hsign : IsSign sign mark) (hds : IsDigits ds) :
      IsExponent (sign * Nat.ofDigitChars 10 ds 0) (e :: (mark ++ ds))

/-- The mantissa and the places of a decimal with an exponent. -/
def scaled (mantissa : Int) (places : Nat) (exponent : Int) : Int × Nat :=
  if exponent ≤ places then (mantissa, (places - exponent).toNat)
  else (mantissa * 10 ^ (exponent - places).toNat, 0)

/-- A number, by its mantissa and its places, and how it is written. -/
inductive IsNumber : Int × Nat → List Char → Prop where
  /-- a minus sign or none, digits, a fraction and an exponent -/
  | mk {sign e : Int} {mark whole ds fraction exponent : List Char} (hsign : IsSign sign mark)
      (hplus : mark ≠ ['+']) (hwhole : IsWhole whole) (hfraction : IsFraction ds fraction)
      (hexponent : IsExponent e exponent) :
      IsNumber (scaled (sign * Nat.ofDigitChars 10 (whole ++ ds) 0) ds.length e)
        (mark ++ (whole ++ (fraction ++ exponent)))

/-! ## Texts between quotation marks -/

/-- The value of a hexadecimal digit. -/
def hexValue? (c : Char) : Option Nat :=
  if '0' ≤ c ∧ c ≤ '9' then some (c.toNat - 48)
  else if 'a' ≤ c ∧ c ≤ 'f' then some (c.toNat - 87)
  else if 'A' ≤ c ∧ c ≤ 'F' then some (c.toNat - 55)
  else none

/-- The value of four hexadecimal digits. -/
def codeUnit? (a b c d : Char) : Option Nat := do
  let high := (← hexValue? a) * 16 + (← hexValue? b)
  let low := (← hexValue? c) * 16 + (← hexValue? d)
  return high * 256 + low

/-- The characters with a short escape, behind the letters that stand for them. -/
def shortEscapes : List (Char × Char) :=
  [('\x22', '\x22'), ('\\', '\\'), ('/', '/'), ('b', '\x08'), ('f', '\x0c'), ('n', '\n'),
    ('r', '\r'), ('t', '\t')]

/-- A character, and what stands for it behind a backslash. -/
inductive IsEscape : Char → List Char → Prop where
  /-- a letter -/
  | short {c letter : Char} (h : (letter, c) ∈ shortEscapes) : IsEscape c [letter]
  /-- its code point -/
  | code {c u v w x : Char} (h : codeUnit? u v w x = some c.toNat) : IsEscape c ['u', u, v, w, x]
  /-- the two halves of its surrogate pair -/
  | pair {c u v w x u' v' w' x' : Char} {high low : Nat}
      (hhigh : codeUnit? u v w x = some (0xD800 + high)) (hh : high < 0x400)
      (hlow : codeUnit? u' v' w' x' = some (0xDC00 + low)) (hl : low < 0x400)
      (hc : c.toNat = 0x10000 + high * 0x400 + low) :
      IsEscape c ['u', u, v, w, x, '\\', 'u', u', v', w', x']

/-- A character, and how it is written between quotation marks. -/
inductive IsWritten : Char → List Char → Prop where
  /-- as it is, unless it is a control character, a quotation mark or a backslash -/
  | plain {c : Char} (hcontrol : 0x20 ≤ c.toNat) (hquote : c ≠ '\x22') (hescape : c ≠ '\\') :
      IsWritten c [c]
  /-- behind a backslash -/
  | escape {c : Char} {t : List Char} (h : IsEscape c t) : IsWritten c ('\\' :: t)

/-- Characters one after the other. -/
inductive AreWritten : List Char → List Char → Prop where
  /-- none -/
  | nil : AreWritten [] []
  /-- one more in front -/
  | cons {c : Char} {cs piece text : List Char} (h : IsWritten c piece) (hs : AreWritten cs text) :
      AreWritten (c :: cs) (piece ++ text)

/-- A text, and how it is written between quotation marks. -/
inductive IsQuoted : String → List Char → Prop where
  /-- its characters between the marks -/
  | mk {s : String} {text : List Char} (h : AreWritten s.toList text) :
      IsQuoted s ('\x22' :: (text ++ ['\x22']))

/-! ## Values -/

/-- What has a text of its own. -/
inductive Phrase where
  /-- a value -/
  | value (j : Json)
  /-- a value with white space around it -/
  | element (j : Json)
  /-- one or more values with commas between them -/
  | elements (js : List Json)
  /-- a named value -/
  | member (m : String × Json)
  /-- one or more named values with commas between them -/
  | members (ms : List (String × Json))

/-- How phrases are written. -/
inductive Spells : Phrase → List Char → Prop where
  /-- the word for nothing -/
  | null : Spells (.value .null) ['n', 'u', 'l', 'l']
  /-- the word for true -/
  | yes : Spells (.value (.bool true)) ['t', 'r', 'u', 'e']
  /-- the word for false -/
  | no : Spells (.value (.bool false)) ['f', 'a', 'l', 's', 'e']
  /-- a number -/
  | number {mantissa : Int} {places : Nat} {t : List Char} (h : IsNumber (mantissa, places) t) :
      Spells (.value (.number mantissa places)) t
  /-- a text between quotation marks -/
  | string {s : String} {t : List Char} (h : IsQuoted s t) : Spells (.value (.string s)) t
  /-- brackets with white space between them -/
  | emptyArray {gap : List Char} (hgap : IsGap gap) :
      Spells (.value (.array [])) ('[' :: (gap ++ [']']))
  /-- brackets with items between them -/
  | array {js : List Json} {t : List Char} (h : Spells (.elements js) t) :
      Spells (.value (.array js)) ('[' :: (t ++ [']']))
  /-- braces with white space between them -/
  | emptyObject {gap : List Char} (hgap : IsGap gap) :
      Spells (.value (.object [])) ('\x7b' :: (gap ++ ['\x7d']))
  /-- braces with members between them -/
  | object {ms : List (String × Json)} {t : List Char} (h : Spells (.members ms) t) :
      Spells (.value (.object ms)) ('\x7b' :: (t ++ ['\x7d']))
  /-- a value with white space around it -/
  | element {j : Json} {before t after : List Char} (hbefore : IsGap before)
      (h : Spells (.value j) t) (hafter : IsGap after) :
      Spells (.element j) (before ++ (t ++ after))
  /-- the last item -/
  | lastElement {j : Json} {t : List Char} (h : Spells (.element j) t) : Spells (.elements [j]) t
  /-- an item, a comma and more items -/
  | moreElements {j : Json} {js : List Json} {t ts : List Char} (h : Spells (.element j) t)
      (hs : Spells (.elements js) ts) : Spells (.elements (j :: js)) (t ++ ',' :: ts)
  /-- a name between quotation marks, a colon and a value -/
  | member {name : String} {j : Json} {before q after t : List Char} (hbefore : IsGap before)
      (hname : IsQuoted name q) (hafter : IsGap after) (h : Spells (.element j) t) :
      Spells (.member (name, j)) (before ++ (q ++ (after ++ ':' :: t)))
  /-- the last member -/
  | lastMember {m : String × Json} {t : List Char} (h : Spells (.member m) t) :
      Spells (.members [m]) t
  /-- a member, a comma and more members -/
  | moreMembers {m : String × Json} {ms : List (String × Json)} {t ts : List Char}
      (h : Spells (.member m) t) (hs : Spells (.members ms) ts) :
      Spells (.members (m :: ms)) (t ++ ',' :: ts)

/-- Whether a text is one of a value. -/
def IsText (j : Json) (text : List Char) : Prop := Spells (.element j) text

end Json

end StagingAudit

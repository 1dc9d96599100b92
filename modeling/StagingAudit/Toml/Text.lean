import StagingAudit.Text.Recogniser
import StagingAudit.Toml.Basic

/-!
# TOML texts, keys and blanks

The characters that may stand where, the four ways to write a text, the keys, and what may stand
between values: blanks, comments and line breaks. A line break is a line feed with or without a
carriage return before it, and is read as a line feed.
-/

namespace StagingAudit

namespace Toml

/-! ## Characters -/

/-- Space and tab. -/
def isBlank (c : Char) : Bool := c == ' ' || c == '\t'

/-- What a comment may hold: tabs and everything but control characters. -/
def isPlain (c : Char) : Bool := c == '\t' || (0x20 ≤ c.toNat && c.toNat != 0x7F)

/-- What a key may hold without quotation marks. -/
def isBare (c : Char) : Bool := c.isAlphanum || c == '-' || c == '_'

/-- The value of a hexadecimal digit. -/
def hexValue? (c : Char) : Option Nat :=
  if c.isDigit then some (c.toNat - 48)
  else if 'a' ≤ c && c ≤ 'f' then some (c.toNat - 87)
  else if 'A' ≤ c && c ≤ 'F' then some (c.toNat - 55)
  else none

/-! ## Blanks, comments and line ends -/

/-- The text after spaces and tabs. -/
def skipBlanks (cs : List Char) : List Char := cs.dropWhile isBlank

/-- One line break. -/
def lineBreak : Recogniser
  | '\n' :: cs => some cs
  | '\r' :: '\n' :: cs => some cs
  | _ => none

/-- The text after a comment, if one starts here. -/
def skipComment (cs : List Char) : List Char :=
  match cs with
  | '#' :: rest => rest.dropWhile isPlain
  | _ => cs

/-- The rest of a line after a value or a header: blanks, a comment, and the end of the line. -/
def lineEnd (cs : List Char) : Option (List Char) :=
  match skipComment (skipBlanks cs) with
  | [] => some []
  | rest => lineBreak rest

/-- The text after any blanks, comments and line breaks; `comment` says whether a comment has
started. -/
def skipTrivia : Bool → List Char → List Char
  | _, [] => []
  | _, '\n' :: cs => skipTrivia false cs
  | _, '\r' :: '\n' :: cs => skipTrivia false cs
  | true, c :: cs => if isPlain c then skipTrivia true cs else c :: cs
  | false, '#' :: cs => skipTrivia true cs
  | false, c :: cs => if isBlank c then skipTrivia false cs else c :: cs

/-! ## Texts -/

/-- The character with a given code point, if there is one. -/
def scalar? (n : Nat) : Option Char := if n.isValidChar then some (Char.ofNat n) else none

/-- The number with the given hexadecimal digits. -/
def hexNumber? (digits : List Char) : Option Nat :=
  digits.foldlM (fun n c => (hexValue? c).map (16 * n + ·)) 0

/-- What a backslash and the characters after it stand for. -/
def escape? : Reader Char
  | 'b' :: cs => some ('\x08', cs)
  | 't' :: cs => some ('\t', cs)
  | 'n' :: cs => some ('\n', cs)
  | 'f' :: cs => some ('\x0c', cs)
  | 'r' :: cs => some ('\r', cs)
  | '\x22' :: cs => some ('\x22', cs)
  | '\\' :: cs => some ('\\', cs)
  | 'u' :: cs => (fixed 4 cs).map (·, cs.drop 4)
  | 'U' :: cs => (fixed 8 cs).map (·, cs.drop 8)
  | _ => none
where
  /-- the character whose code point the first `n` characters give -/
  fixed (n : Nat) (cs : List Char) : Option Char :=
    if cs.length < n then none else (hexNumber? (cs.take n)).bind scalar?

theorem length_le_of_escape? {cs rest : List Char} {c : Char} (h : escape? cs = some (c, rest)) :
    rest.length ≤ cs.length := by
  unfold escape? at h
  split at h <;> first
    | (cases h; simp)
    | (obtain ⟨_, _, he⟩ := Option.map_eq_some_iff.1 h; cases he; simp; omega)
    | cases h

/-- Puts a character in front of what a reader of texts has read. -/
def consChar (c : Char) : List Char × List Char → List Char × List Char
  | (text, rest) => (c :: text, rest)

/-- A text up to its closing quotation mark, on one line. -/
def basicBody (cs : List Char) : Option (List Char × List Char) :=
  match cs with
  | [] => none
  | '\x22' :: rest => some ([], rest)
  | '\\' :: rest =>
    match _h : escape? rest with
    | some (c, rest') => (basicBody rest').map (consChar c)
    | none => none
  | c :: rest => if isPlain c then (basicBody rest).map (consChar c) else none
termination_by cs.length
decreasing_by
  · have hle := length_le_of_escape? (by assumption); simp; omega
  · simp

/-- A text up to its closing apostrophe, on one line and without escapes. -/
def literalBody : List Char → Option (List Char × List Char)
  | [] => none
  | '\x27' :: rest => some ([], rest)
  | c :: rest => if isPlain c then (literalBody rest).map (consChar c) else none

/-- Whether only blanks stand before the end of the line. -/
def blankToLineEnd (cs : List Char) : Bool := (lineBreak (skipBlanks cs)).isSome

/-- A text of several lines up to its three closing quotation marks. One or two marks directly
before these belong to the text. A backslash at the end of a line, which only blanks may follow,
takes away all blanks and line breaks up to the next character; `joining` says that it does. -/
def multilineBody (joining : Bool) (cs : List Char) : Option (List Char × List Char) :=
  match cs with
  | [] => none
  | '\x22' :: '\x22' :: '\x22' :: '\x22' :: '\x22' :: rest => some (['\x22', '\x22'], rest)
  | '\x22' :: '\x22' :: '\x22' :: '\x22' :: rest => some (['\x22'], rest)
  | '\x22' :: '\x22' :: '\x22' :: rest => some ([], rest)
  | '\r' :: '\n' :: rest =>
    if joining then multilineBody true rest else (multilineBody false rest).map (consChar '\n')
  | '\n' :: rest =>
    if joining then multilineBody true rest else (multilineBody false rest).map (consChar '\n')
  | '\\' :: rest =>
    if blankToLineEnd rest then multilineBody true rest
    else
      match _h : escape? rest with
      | some (c, rest') => (multilineBody false rest').map (consChar c)
      | none => none
  | c :: rest =>
    if joining && isBlank c then multilineBody true rest
    else if isPlain c then (multilineBody false rest).map (consChar c)
    else none
termination_by cs.length
decreasing_by
  all_goals first
    | (simp; done)
    | (simp; omega)
    | (have hle := length_le_of_escape? (by assumption); simp; omega)

/-- A text of several lines, without escapes, up to its three closing apostrophes. -/
def multilineLiteralBody : List Char → Option (List Char × List Char)
  | [] => none
  | '\x27' :: '\x27' :: '\x27' :: '\x27' :: '\x27' :: rest => some (['\x27', '\x27'], rest)
  | '\x27' :: '\x27' :: '\x27' :: '\x27' :: rest => some (['\x27'], rest)
  | '\x27' :: '\x27' :: '\x27' :: rest => some ([], rest)
  | '\r' :: '\n' :: rest => (multilineLiteralBody rest).map (consChar '\n')
  | '\n' :: rest => (multilineLiteralBody rest).map (consChar '\n')
  | c :: rest => if isPlain c then (multilineLiteralBody rest).map (consChar c) else none

/-- A text without a line break at its start. -/
def skipFirstBreak (cs : List Char) : List Char := (lineBreak cs).getD cs

/-- A text in any of its four forms. -/
def text? : Reader (List Char)
  | '\x22' :: '\x22' :: '\x22' :: cs => multilineBody false (skipFirstBreak cs)
  | '\x22' :: cs => basicBody cs
  | '\x27' :: '\x27' :: '\x27' :: cs => multilineLiteralBody (skipFirstBreak cs)
  | '\x27' :: cs => literalBody cs
  | _ => none

/-! ## Keys -/

/-- One part of a key: bare, or a text on one line. -/
def keyPart? : Reader String
  | '\x22' :: cs => (basicBody cs).map fun (k, rest) => (String.ofList k, rest)
  | '\x27' :: cs => (literalBody cs).map fun (k, rest) => (String.ofList k, rest)
  | cs =>
    let bare := cs.takeWhile isBare
    if bare.isEmpty then none else some (String.ofList bare, cs.dropWhile isBare)

/-- The parts of a key, with blanks around each, at most `n` of them. -/
def keyParts? : Nat → Reader (List String)
  | 0, _ => none
  | n + 1, cs => do
    let (part, rest) ← keyPart? (skipBlanks cs)
    match skipBlanks rest with
    | '.' :: more =>
      let (parts, rest) ← keyParts? n more
      return (part :: parts, rest)
    | rest => return ([part], rest)

/-- A key. -/
def key? : Reader (List String) := keyParts? (maxDepth - 1)

end Toml

end StagingAudit

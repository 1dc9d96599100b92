import StagingAudit.Ignore.Pattern

/-!
# Parts of patterns

A pattern of an ignore file as it is written: a sequence of parts, some of which are groups with
sequences of parts of their own.

* `joined` is what a sequence of parts stands for.
* `nesting` says how deep groups, alternatives, sequences, classes and repetitions are nested in it,
  each of them counted when it holds more than one thing.
* `expression` writes it as a regular expression over bytes, the form in which messages show it.

All three treat a character outside ASCII as the sequence of its bytes.
-/

namespace StagingAudit.Ignore

/-- The parts of a written pattern. -/
inductive Part where
  /-- a character that stands for itself -/
  | char (c : Char)
  /-- one byte of a name -/
  | any
  /-- any number of bytes of a name -/
  | star
  /-- one byte of a class -/
  | oneOf (c : ByteClass)
  /-- a group of braces that stands for nothing -/
  | blank
  /-- a group of braces with its alternatives, each of which stands for something -/
  | group (first : List Part) (others : List (List Part))
  /-- a double star at the start, with the separator after it -/
  | deepStart
  /-- a double star at the end, with the separator before it -/
  | deepEnd
  /-- a double star between two separators, with both of them -/
  | deepMiddle
  deriving Repr

/-- Whether a part stands for nothing. -/
def Part.isBlank : Part → Bool
  | blank => true
  | _ => false

/-- The part that a group of braces makes of its alternatives. Those that stand for nothing are
passed over. -/
def Part.ofAlternatives (alternatives : List (List Part)) : Part :=
  match alternatives.filter fun parts => !parts.all isBlank with
  | [] => .blank
  | first :: others => .group first others

/-! ## Meaning -/

mutual

/-- What a part stands for. -/
def Part.pattern : Part → Pattern
  | .char c => .literal (String.utf8EncodeChar c)
  | .any => .one .inside
  | .star => .many .inside
  | .oneOf c => .one c
  | .blank => .nothing
  | .group first others => orAny (joined first) others
  | .deepStart => .directories
  | .deepEnd => .andThen .slash .anything
  | .deepMiddle => .andThen .slash .directories

/-- What parts stand for one after the other. -/
def joined : List Part → Pattern
  | [] => .nothing
  | part :: parts => .andThen part.pattern (joined parts)

/-- What a pattern stands for, or one of some alternatives. -/
def orAny (p : Pattern) : List (List Part) → Pattern
  | [] => p
  | parts :: others => orAny (.orElse p (joined parts)) others

end

/-- What the parts of a whole pattern stand for. A lone double star stands for anything. -/
def wholePattern : List Part → Pattern
  | [.deepStart] => .anything
  | parts => joined parts

/-! ## Nesting -/

/-- How some things side by side are nested. -/
structure Nesting where
  /-- how many they are -/
  pieces : Nat := 0
  /-- the depth of the deepest -/
  deepest : Nat := 0
  deriving DecidableEq, Repr

namespace Nesting

/-- Some things and others beside them. -/
def beside (a b : Nesting) : Nesting :=
  { pieces := a.pieces + b.pieces, deepest := max a.deepest b.deepest }

/-- The depth of things side by side: one more than that of the deepest, unless it is alone. -/
def depth (n : Nesting) : Nat := if n.pieces ≤ 1 then n.deepest else n.deepest + 1

/-- One thing of some depth. -/
def single (depth : Nat) : Nesting := { pieces := 1, deepest := depth }

end Nesting

/-- The depth of a class: one, and one more when it has several ranges. -/
def ByteClass.depth (c : ByteClass) : Nat :=
  ({ pieces := c.ranges.length, deepest := 1 } : Nesting).depth

mutual

/-- How a part is nested. -/
def Part.nesting : Part → Nesting
  | .char c => { pieces := c.utf8Size }
  | .any => .single 1
  | .star => .single 2
  | .oneOf c => .single c.depth
  | .blank => {}
  | .group first others =>
    .single ((Nesting.single (joinedNesting first).depth).beside (otherNesting others)).depth.succ
  | .deepStart => .single 4
  | .deepEnd => { pieces := 2, deepest := 1 }
  | .deepMiddle => .single 4

/-- How parts are nested one after the other. -/
def joinedNesting : List Part → Nesting
  | [] => {}
  | part :: parts => part.nesting.beside (joinedNesting parts)

/-- How alternatives are nested. -/
def otherNesting : List (List Part) → Nesting
  | [] => {}
  | parts :: others => (Nesting.single (joinedNesting parts).depth).beside (otherNesting others)

end

/-- The depth of a whole pattern, which always counts as a sequence. -/
def wholeDepth (parts : List Part) : Nat := (joinedNesting parts).deepest + 1

/-! ## Regular expressions -/

/-- The characters with a meaning of their own in a regular expression. -/
def specialChars : List Char := "\\.+*?()|[]\x7b\x7d^$#&-~".toList

/-- A byte that stands for itself in a regular expression. Outside ASCII it is written by two
hexadecimal digits. -/
def expressByte (b : UInt8) : List Char :=
  if b < 128 then
    let c := Char.ofNat b.toNat
    if specialChars.contains c then ['\\', c] else [c]
  else "\\x".toList ++ [Nat.digitChar (b.toNat / 16), Nat.digitChar (b.toNat % 16)]

/-- A class as a regular expression. -/
def ByteClass.expression (c : ByteClass) : List Char :=
  let sign := if c.negated then ['^'] else []
  let ranges := c.ranges.flatMap fun (low, high) =>
    if low = high then expressByte low else expressByte low ++ '-' :: expressByte high
  '[' :: sign ++ ranges ++ [']']

mutual

/-- A part as a regular expression, in front of a text. -/
def Part.express : Part → List Char → List Char
  | .char c, rest => (String.utf8EncodeChar c).flatMap expressByte ++ rest
  | .any, rest => "[^/]".toList ++ rest
  | .star, rest => "[^/]*".toList ++ rest
  | .oneOf c, rest => c.expression ++ rest
  | .blank, rest => rest
  | .group first others, rest =>
    "(?:".toList ++ expressJoined first (expressOthers others (')' :: rest))
  | .deepStart, rest => "(?:/?|.*/)".toList ++ rest
  | .deepEnd, rest => "/.*".toList ++ rest
  | .deepMiddle, rest => "(?:/|/.*/)".toList ++ rest

/-- Parts one after the other as a regular expression, in front of a text. -/
def expressJoined : List Part → List Char → List Char
  | [], rest => rest
  | part :: parts, rest => part.express (expressJoined parts rest)

/-- Alternatives after the first as a regular expression, in front of a text. -/
def expressOthers : List (List Part) → List Char → List Char
  | [], rest => rest
  | parts :: others, rest => '|' :: expressJoined parts (expressOthers others rest)

end

/-- A whole pattern of more than a double star as a regular expression. -/
def expression (parts : List Part) : List Char :=
  "(?-u)^".toList ++ expressJoined parts ['$']

end StagingAudit.Ignore

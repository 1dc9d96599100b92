import StagingAudit.Ignore.Part

/-!
# Reading patterns

How the patterns of ignore files are written. A question mark stands for a byte of a name and a
star for any number of them; brackets hold a class of characters and braces alternatives; a
backslash takes away the meaning of the character after it. A double star between separators
stands for any directories.

A bracket that is never closed stands for itself, and so do all brackets after it. A group of
braces whose alternatives are all empty stands for nothing, and an empty alternative beside others
is passed over.
-/

namespace StagingAudit.Ignore

/-- Why a pattern cannot be read. -/
inductive PatternFault where
  /-- a brace is closed that was not opened -/
  | unopened
  /-- a brace is never closed -/
  | unclosed
  /-- a backslash has nothing after it -/
  | dangling
  /-- a range of a class ends before it starts -/
  | reversed (low high : Char)
  deriving DecidableEq, Repr

/-- A fault in words. -/
def PatternFault.message : PatternFault → String
  | unopened => "unopened alternate group; missing '\x7b' (maybe escape '\x7d' with '[\x7d]'?)"
  | unclosed => "unclosed alternate group; missing '\x7d' (maybe escape '\x7b' with '[\x7b]'?)"
  | dangling => "dangling '\\'"
  | reversed low high =>
    "invalid range; '" ++ String.singleton low ++ "' > '" ++ String.singleton high ++ "'"

/-! ## Classes -/

/-- Stretches the last range of a class to end with a character. -/
def stretchLast (ranges : List (Char × Char)) (c : Char) :
    Except PatternFault (List (Char × Char)) :=
  match ranges.getLast? with
  | some (low, _) =>
    if low ≤ c then .ok (ranges.dropLast ++ [(low, c)]) else .error (.reversed low c)
  | none => .ok [(c, c)]

/-- The ranges of a class from here on and the text after it, unless it is never closed. `first`
holds before its first character, which is never the end of it, and `stretch` after a hyphen. -/
def classBody? (first stretch : Bool) (ranges : List (Char × Char)) :
    List Char → Except PatternFault (Option (List (Char × Char) × List Char))
  | [] => .ok none
  | c :: cs =>
    if c = ']' && !first then
      .ok (some (if stretch then ranges ++ [('-', '-')] else ranges, cs))
    else if c = '-' && !first && !stretch then classBody? false true ranges cs
    else if stretch then
      match stretchLast ranges c with
      | .ok ranges => classBody? false false ranges cs
      | .error fault => .error fault
    else classBody? false false (ranges ++ [(c, c)]) cs

/-- Whether a class is negated, and the text after the sign of that. -/
def classSign : List Char → Bool × List Char
  | '!' :: cs => (true, cs)
  | '^' :: cs => (true, cs)
  | cs => (false, cs)

/-- The ranges of bytes that stand for a range of characters. -/
def byteRanges (r : Char × Char) : List (UInt8 × UInt8) :=
  let low := String.utf8EncodeChar r.1
  let high := String.utf8EncodeChar r.2
  if r.1 = r.2 then low.map fun b => (b, b)
  else
    (low.dropLast.map fun b => (b, b)) ++ [(low.getLastD 0, high.headD 0)] ++
      high.tail.map fun b => (b, b)

/-- The class that an opened bracket starts and the text after it, unless it is never closed. -/
def class? (cs : List Char) : Except PatternFault (Option (ByteClass × List Char)) :=
  match classBody? true false [] (classSign cs).2 with
  | .ok (some (ranges, rest)) =>
    .ok (some ({ negated := (classSign cs).1, ranges := ranges.flatMap byteRanges }, rest))
  | .ok none => .ok none
  | .error fault => .error fault

theorem length_lt_of_classBody? {cs rest : List Char} {first stretch : Bool}
    {ranges ranges' : List (Char × Char)}
    (h : classBody? first stretch ranges cs = .ok (some (ranges', rest))) :
    rest.length < cs.length := by
  induction cs generalizing first stretch ranges with
  | nil => simp [classBody?] at h
  | cons c cs ih =>
    simp only [classBody?] at h
    split at h
    · simp only [Except.ok.injEq, Option.some.injEq, Prod.mk.injEq] at h
      simp [h.2]
    · split at h
      · exact Nat.lt_succ_of_lt (ih h)
      · split at h
        · split at h
          · exact Nat.lt_succ_of_lt (ih h)
          · cases h
        · exact Nat.lt_succ_of_lt (ih h)

theorem length_classSign_le (cs : List Char) : (classSign cs).2.length ≤ cs.length := by
  unfold classSign
  split <;> simp

theorem length_lt_of_class? {cs rest : List Char} {c : ByteClass}
    (h : class? cs = .ok (some (c, rest))) : rest.length < cs.length := by
  unfold class? at h
  split at h
  · next hbody =>
    simp only [Except.ok.injEq, Option.some.injEq, Prod.mk.injEq] at h
    have hlt := length_lt_of_classBody? hbody
    have hle := length_classSign_le cs
    rw [← h.2]
    omega
  · cases h
  · cases h

/-! ## Reading on -/

/-- A group of braces that is open. -/
structure OpenGroup where
  /-- the parts before it, last first -/
  before : List Part
  /-- its complete alternatives, last first, each in order -/
  alternatives : List (List Part) := []

/-- What has been read of a pattern. -/
structure Reading where
  /-- the groups that are open, innermost first -/
  groups : List OpenGroup := []
  /-- the parts of the innermost alternative, last first -/
  parts : List Part := []
  /-- the last character -/
  last : Option Char := none
  /-- whether brackets stand for themselves from here on -/
  brackets : Bool := false

namespace Reading

/-- Adds a part that ends with a character. -/
def push (r : Reading) (last : Char) (part : Part) : Reading :=
  { r with parts := part :: r.parts, last := some last }

/-- Adds a character that stands for itself. -/
def pushChar (r : Reading) (c : Char) : Reading := r.push c (.char c)

/-- Adds a star. -/
def pushStar (r : Reading) : Reading := r.push '*' .star

/-- Opens a group. -/
def openGroup (r : Reading) : Reading :=
  { r with groups := { before := r.parts } :: r.groups, parts := [], last := some '\x7b' }

/-- Starts the next alternative of the innermost group; a comma outside of groups stands for
itself. -/
def nextAlternative (r : Reading) : Reading :=
  match r.groups with
  | [] => r.pushChar ','
  | g :: gs =>
    { r with
      groups := { g with alternatives := r.parts.reverse :: g.alternatives } :: gs
      parts := []
      last := some ',' }

/-- Closes the innermost group, if there is one. -/
def closeGroup? (r : Reading) : Option Reading :=
  match r.groups with
  | [] => none
  | g :: gs =>
    some { r with
      groups := gs
      parts := .ofAlternatives (r.parts.reverse :: g.alternatives).reverse :: g.before
      last := some '\x7d' }

/-- Whether the last character lets a double star stand for directories: a separator does, and in
a group so does a brace or a comma, which can only be there with a backslash before it. -/
def allowsDeep (r : Reading) : Bool :=
  r.last == some '/' || (!r.groups.isEmpty && (r.last == some ',' || r.last == some '\x7b'))

/-- Replaces the last part by a double star. Double stars at the start or at the end take another
one in. -/
def deepen (r : Reading) (last : Char) (part : Part) : Reading :=
  let part := match r.parts.head? with
    | some .deepStart => .deepStart
    | some .deepEnd => .deepEnd
    | _ => part
  { r with parts := part :: r.parts.tail, last := some last }

/-- Reads two stars, given the text after them, and says how many characters of that are read with
them: a separator, or none. Where they cannot stand for directories they are just two stars. -/
def doubleStar (r : Reading) (rest : List Char) : Reading × Nat :=
  let inGroup := !r.groups.isEmpty
  if r.parts.isEmpty then
    match rest with
    | [] => (r.push '*' .deepStart, 0)
    | '/' :: _ => (r.push '/' .deepStart, 1)
    | _ => (r.pushStar.pushStar, 0)
  else if r.allowsDeep then
    match rest with
    | [] => (r.deepen '*' .deepEnd, 0)
    | '/' :: _ => (r.deepen '/' .deepMiddle, 1)
    | c :: _ =>
      if inGroup && (c == ',' || c == '\x7d') then (r.deepen '*' .deepEnd, 0)
      else (r.pushStar.pushStar, 0)
  else (r.pushStar.pushStar, 0)

/-- Reads the rest of a pattern and answers all its parts. -/
def finish (r : Reading) (cs : List Char) : Except PatternFault (List Part) :=
  match cs with
  | [] => if r.groups.isEmpty then .ok r.parts.reverse else .error .unclosed
  | '?' :: rest => (r.push '?' .any).finish rest
  | '*' :: '*' :: rest =>
    (r.doubleStar rest).1.finish (rest.drop (r.doubleStar rest).2)
  | '*' :: rest => r.pushStar.finish rest
  | '[' :: rest =>
    if r.brackets then (r.pushChar '[').finish rest
    else
      match _h : class? rest with
      | .ok (some (c, rest)) => (r.push ']' (.oneOf c)).finish rest
      | .ok none => ({ r.pushChar '[' with brackets := true } : Reading).finish rest
      | .error fault => .error fault
  | '\x7b' :: rest => r.openGroup.finish rest
  | '\x7d' :: rest =>
    match r.closeGroup? with
    | some r => r.finish rest
    | none => .error .unopened
  | ',' :: rest => r.nextAlternative.finish rest
  | ['\\'] => .error .dangling
  | '\\' :: c :: rest => (r.pushChar c).finish rest
  | c :: rest => (r.pushChar c).finish rest
termination_by cs.length
decreasing_by
  all_goals simp_wf
  all_goals first
    | omega
    | (have hlt := length_lt_of_class? (by assumption); omega)

end Reading

/-- The parts of a pattern. -/
def readParts (cs : List Char) : Except PatternFault (List Part) := ({} : Reading).finish cs

end StagingAudit.Ignore

import StagingAudit.Text.Recogniser

/-!
# Lines

Line numbers count line feeds before a byte offset, from one. `textLines` cuts a text into its
lines the way a reader of text files does: the line feed, with a carriage return before it, ends a
line, and a last line needs no end.
-/

namespace StagingAudit

/-- How many line feeds start before a byte offset. -/
def newlinesBefore : List Char → Nat → Nat
  | [], _ => 0
  | _ :: _, 0 => 0
  | c :: cs, n + 1 => (if c = '\n' then 1 else 0) + newlinesBefore cs (n + 1 - c.utf8Size)

/-- The line of a byte offset, from one. An offset past the end belongs to the last line. -/
def lineAt (text : List Char) (offset : Nat) : Nat := newlinesBefore text offset + 1

/-- The pieces of a text between the occurrences of a separator. -/
def splitAt {α : Type} [DecidableEq α] (sep : α) : List α → List (List α)
  | [] => [[]]
  | c :: cs =>
    if c = sep then [] :: splitAt sep cs
    else
      match splitAt sep cs with
      | piece :: pieces => (c :: piece) :: pieces
      | [] => [[c]]

/-- The lines of a text with given end marks: `feed` ends a line and takes a `back` before it
along; what comes after the last `feed` is a line as it stands, unless it is empty. -/
def linesAt {α : Type} [DecidableEq α] (feed back : α) (text : List α) : List (List α) :=
  let pieces := splitAt feed text
  let last := pieces.getLastD []
  (pieces.dropLast.map fun line => if line.getLast? = some back then line.dropLast else line) ++
    if last.isEmpty then [] else [last]

/-- The lines of a text. -/
def textLines (text : List Char) : List (List Char) := linesAt '\n' '\r' text

/-- The lines of a file that may not be a text. -/
def byteLines (bytes : List UInt8) : List (List UInt8) := linesAt 10 13 bytes

theorem splitAt_ne_nil {α : Type} [DecidableEq α] (sep : α) (cs : List α) :
    splitAt sep cs ≠ [] := by
  induction cs with
  | nil => simp [splitAt]
  | cons c cs ih =>
    simp only [splitAt]
    split
    · simp
    · split <;> simp

end StagingAudit

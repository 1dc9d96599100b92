import StagingAudit.Text.Bytes
import StagingAudit.Text.Lines

/-!
# The configuration call

A model declares how it is built in a call of `config` inside an expression directive. The call is
read from the raw text, since stripping blanks it. Its argument text runs from the opening
parenthesis of the first call to the first parenthesis that is followed by the closing braces,
with white space between them at most; `extractTags` and `extractMaterialization` read two
keyword arguments from it.
-/

namespace StagingAudit

/-- The opening of a configuration call: double braces, `config` and a parenthesis. -/
def configOpening : Recogniser := fun cs => do
  let cs ← Recogniser.literal ['\x7b', '\x7b'] cs
  let cs ← Recogniser.literal ['c', 'o', 'n', 'f', 'i', 'g'] (skipWhite cs)
  Recogniser.literal ['('] (skipWhite cs)

/-- The end of a configuration call: a parenthesis and double braces. -/
def configClosing : Recogniser := fun cs => do
  let cs ← Recogniser.literal [')'] cs
  Recogniser.literal ['\x7d', '\x7d'] (skipWhite cs)

/-- The line of the first opening of a configuration call. -/
def configLine? (raw : List Char) : Option Nat :=
  (find? configOpening raw).map fun (before, _) => lineAt raw (byteLength before)

/-- The argument text of the first configuration call, if the call is closed. -/
def configArguments? (raw : List Char) : Option (List Char) := do
  let (_, inner) ← find? configOpening raw
  let (arguments, _) ← find? configClosing inner
  return arguments

/-! ## Keyword arguments -/

/-- Either quotation mark. -/
def isQuote (c : Char) : Bool := c == '\x27' || c == '\x22'

/-- A keyword, an equals sign and white space around it. -/
def keyword (name : List Char) : Recogniser := fun cs => do
  let cs ← Recogniser.literal name cs
  let cs ← Recogniser.literal ['='] (skipWhite cs)
  return skipWhite cs

/-- The keyword `tags` and the bracket that opens its list. -/
def tagsOpening : Recogniser := fun cs => do
  let cs ← keyword ['t', 'a', 'g', 's'] cs
  Recogniser.literal ['['] cs

/-- The elements of the first `tags` list that is closed: the pieces between commas, trimmed, the
empty ones dropped, and the quotation marks taken off the others. Without such a list there are
no tags. -/
def extractTags (arguments : List Char) : List String :=
  match find? tagsOpening arguments with
  | none => []
  | some (_, inner) =>
    match cutAt? [']'] inner with
    | none => []
    | some (list, _) =>
      (((splitAt ',' list).map trimWhite).filter fun t => !t.isEmpty).map fun t =>
        String.ofList (trimClass isQuote t)

/-- A quoted word, as the word and the text after the closing mark. -/
def quotedWord? (cs : List Char) : Option (List Char × List Char) :=
  match cs with
  | q :: rest =>
    let word := rest.takeWhile isWord
    match rest.dropWhile isWord with
    | q' :: after => if isQuote q && isQuote q' && !word.isEmpty then some (word, after) else none
    | [] => none
  | [] => none

/-- The value of the first `materialized` argument that is a quoted word. -/
def extractMaterialization (arguments : List Char) : Option String :=
  (scan? (fun _ cs => ((keyword "materialized".toList cs).bind quotedWord?).map (·.1)) none
    arguments).map fun (_, word) => String.ofList word

/-! ## Metadata -/

/-- What a model's configuration call declares. -/
structure ConfigCall where
  /-- the line of the call, from one -/
  line : Nat
  /-- the materialization, when it is given as a quoted word -/
  materialization : Option String
  /-- the tags in the order of declaration -/
  tags : List String
  deriving DecidableEq, Repr

/-- Reads the first configuration call of a raw text. There is none when no call opens or the
first one is not closed. -/
def ConfigCall.ofRaw? (raw : List Char) : Option ConfigCall := do
  let line ← configLine? raw
  let arguments ← configArguments? raw
  return ⟨line, extractMaterialization arguments, extractTags arguments⟩

end StagingAudit

import StagingAudit.FileTree
import StagingAudit.Ignore.Depth
import StagingAudit.Ignore.Reader

/-!
# Rules of ignore files

Each line of an ignore file is a pattern for paths below a directory. A line with `!` in front takes
back what another one ignores; one with a separator at its end is about directories only; one with
a separator anywhere else is for the whole path, any other for the last name of it. Blank lines and
lines with `#` in front say nothing. Of the lines that match a path the last one decides.

A line that cannot be read is left out and remembered as a fault; a line that is no text ends the
file. A pattern that is nested too deep spoils the whole file.
-/

namespace StagingAudit.Ignore

/-- What one line of an ignore file says. -/
structure Rule where
  /-- whether it takes files back -/
  negated : Bool
  /-- whether it is about directories only -/
  directoriesOnly : Bool
  /-- its pattern as it is written -/
  parts : List Part
  deriving Repr

/-- Which paths a rule is about. -/
def Rule.pattern (r : Rule) : Pattern := wholePattern r.parts

/-- A line without the white space at its end, unless a backslash keeps it. -/
def trimLine (line : List Char) : List Char :=
  if ['\\', ' '].isSuffixOf line then line else dropTrailing isWhite line

/-- The sign of a line, whether its pattern starts at the directory of the file, and the pattern. -/
def signs : List Char → Bool × Bool × List Char
  | '\\' :: '!' :: rest => (false, false, '!' :: rest)
  | '\\' :: '#' :: rest => (false, false, '#' :: rest)
  | '!' :: '/' :: rest => (true, true, rest)
  | '!' :: rest => (true, false, rest)
  | '/' :: rest => (false, true, rest)
  | rest => (false, false, rest)

/-- The rule of a line; blank lines and comments have none. A pattern without a separator matches
in any directory, and one that ends with a double star does not match the directory before it. -/
def Rule.ofLine? (line : List Char) : Except PatternFault (Option Rule) :=
  if line.head? = some '#' || (trimLine line).isEmpty then .ok none
  else
    let (negated, anchored, text) := signs (trimLine line)
    let directoriesOnly := text.getLast? == some '/'
    let text :=
      if directoriesOnly then
        if text.dropLast.getLast? = some '\\' then text.dropLast.dropLast else text.dropLast
      else text
    let floating := !anchored && !text.contains '/' && text != ['*', '*']
    let text := if floating then '*' :: '*' :: '/' :: text else text
    let text := if ['/', '*', '*'].isSuffixOf text then text ++ ['/', '*'] else text
    (readParts text).map fun parts => some { negated, directoriesOnly, parts }

/-- What rules say about a path: the last one that matches it decides whether it is ignored. -/
def verdict? (rules : List Rule) (path : List UInt8) (isDirectory : Bool) : Option Bool :=
  (rules.reverse.find? fun r =>
    (isDirectory || !r.directoriesOnly) && r.pattern.isMatch path).map (!·.negated)

/-! ## Files -/

/-- What is wrong with an ignore file. -/
inductive Fault where
  /-- a line has a pattern that cannot be read -/
  | pattern (file : Path) (line : Nat) (text : List Char) (fault : PatternFault)
  /-- the file cannot be read from a line on -/
  | line (file : Path) (line : Nat) (fault : FileFault)
  /-- a file that leads to an ignore file cannot be read -/
  | link (file : Path) (fault : FileFault)
  /-- a pattern is nested too deep -/
  | depth (fault : DepthFault)
  deriving DecidableEq, Repr

/-- A fault in words. -/
def Fault.message : Fault → String
  | pattern file n text fault =>
    file.display ++ ": line " ++ toString n ++ ": error parsing glob '" ++ String.ofList text ++
      "': " ++ fault.message
  | line file n fault => file.display ++ ": line " ++ toString n ++ ": " ++ fault.message
  | link file fault => file.display ++ ": " ++ fault.message
  | depth fault => fault.message

/-- What was read of an ignore file. -/
structure RuleFile where
  /-- its rules, in order -/
  rules : List Rule := []
  /-- the faults of its lines, in order -/
  faults : List Fault := []
  /-- the pattern that spoils it by being nested too deep -/
  spoiled : Option DepthFault := none
  deriving Repr

namespace RuleFile

/-- Reads lines, `none` for one that is no text, and numbers them from `n` on. -/
def ofLines (file : Path) : Nat → List (Option (List Char)) → RuleFile
  | _, [] => {}
  | n, none :: _ => { faults := [.line file n .notText] }
  | n, some line :: lines =>
    let rest := ofLines file (n + 1) lines
    match Rule.ofLine? line with
    | .ok none => rest
    | .ok (some rule) => { rest with rules := rule :: rest.rules }
    | .error fault => { rest with faults := .pattern file n (trimLine line) fault :: rest.faults }

/-- The character that a file may start with to say that it is a text. -/
def byteOrderMark : Char := Char.ofNat 0xFEFF

/-- Refuses all rules when one of them is nested too deep. -/
def checkDepth (f : RuleFile) : RuleFile :=
  match depthFault? (f.rules.map Rule.parts) with
  | some fault => { f with rules := [], spoiled := some fault }
  | none => f

/-- Reads the contents of an ignore file. Byte order marks at its start do not count. -/
def ofBytes (file : Path) (bytes : List UInt8) : RuleFile :=
  match (byteLines bytes).map decode? with
  | some first :: lines =>
    (ofLines file 1 (some (first.dropWhile (· == byteOrderMark)) :: lines)).checkDepth
  | lines => (ofLines file 1 lines).checkDepth

/-- Reads what a path leads to. Where nothing is there are no rules, and a directory cannot be
read. -/
def ofLook (file : Path) : Except FileFault FileTree → RuleFile
  | .ok (.file bytes) => ofBytes file bytes
  | .ok (.directory _) => { faults := [.line file 1 .isADirectory] }
  | .error _ => {}

/-- The faults that are worth a complaint: that a file cannot be read is none by itself. -/
def complaints (f : RuleFile) : List Fault :=
  let lines := match f.faults with
    | [.line _ _ _] => []
    | faults => faults
  lines ++ (f.spoiled.map .depth).toList

end RuleFile

end StagingAudit.Ignore

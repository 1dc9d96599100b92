import StagingAudit.ConfigCall
import StagingAudit.Conventions
import StagingAudit.Path
import StagingAudit.Region

/-!
# Models

Everything the rules may ask about one model file, worked out once from its path and its text: the
raw and the stripped text, the configuration call, the blocks, and the source system that the
directory layout names.
-/

namespace StagingAudit

/-- One model file and the facts read off it. -/
structure Model where
  /-- the path as it was given -/
  path : Path
  /-- the path below the project root, or the path itself when it is elsewhere -/
  relativePath : Path
  /-- the text as it was read -/
  raw : List Char
  /-- the text with every template directive blanked -/
  stripped : List Char
  /-- the line of the first configuration call that opens -/
  configLine : Option Nat
  /-- the first configuration call, when it is closed -/
  config : Option ConfigCall
  /-- the named blocks in order -/
  blocks : List Block
  /-- the source system named by the directory layout -/
  sourceName : Option String
  /-- the conventions in force -/
  conventions : Conventions
  deriving Repr

/-- The directory just below the first directory called `anchor`, among the directories that a
relative path goes through. The file's own name does not count. -/
def sourceNameOf? (relative : Path) (anchor : String) : Option String :=
  match relative.parent? with
  | none => none
  | some dir =>
    let names := dir.components.filterMap fun
      | .name n => some (String.ofList n)
      | _ => none
    (names.dropWhile (· != anchor))[1]?

namespace Model

/-- Reads a model from its path and text. -/
def ofText (root path : Path) (raw : List Char) (conventions : Conventions) : Model :=
  let relative := (Path.below? root path).getD path
  let stripped := stripDirectives raw
  { path
    relativePath := relative
    raw
    stripped
    configLine := configLine? raw
    config := ConfigCall.ofRaw? raw
    blocks := findBlocks stripped
    sourceName := sourceNameOf? relative conventions.anchorDir
    conventions }

section OfText

variable (root path : Path) (raw : List Char) (conventions : Conventions)

@[simp]
theorem configLine_ofText : (ofText root path raw conventions).configLine = configLine? raw := rfl

@[simp]
theorem config_ofText : (ofText root path raw conventions).config = ConfigCall.ofRaw? raw := rfl

@[simp]
theorem sourceName_ofText : (ofText root path raw conventions).sourceName =
    sourceNameOf? ((Path.below? root path).getD path) conventions.anchorDir := rfl

@[simp]
theorem conventions_ofText : (ofText root path raw conventions).conventions = conventions := rfl

end OfText

/-- The first block of a given name, in any ASCII case. -/
def block? (m : Model) (name : String) : Option Block := m.blocks.find? (·.isNamed name)

/-- Whether the model has a block of a given name. -/
def hasBlock (m : Model) (name : String) : Bool := (m.block? name).isSome

/-- The names of the blocks in order. -/
def blockNames (m : Model) : List String := m.blocks.map (·.name)

/-- The first tag the model should carry, when its source system is known. -/
def expectedSourceTag (m : Model) : Option String := m.sourceName.map m.conventions.sourceTag

end Model

end StagingAudit

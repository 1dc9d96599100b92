import StagingAudit.Rule.Basic

/-!
# Rules on the blocks of a model

The presence and order of the required blocks, the two markers of the `enhanced` block, the column
list of the `final` block, the comments that group columns and the selection at the end.

The markers are looked for in the raw text, since a surrogate key is usually made by a template
directive; everything else is read off the stripped text.
-/

namespace StagingAudit

namespace RuleId

/-! ## Presence and order -/

/-- What a missing block is for. -/
def blockGuidance (name : String) : String :=
  match name with
  | "source" =>
    "Add a 'source' CTE that pulls from \x7b\x7b source() \x7d\x7d with deduplication " ++
      "if needed. See docs/conventions/staging.md (source CTE)."
  | "renamed" =>
    "Add a 'renamed' CTE for column renaming, type casting, and trimming. " ++
      "No filtering or logic. See docs/conventions/staging.md (renamed CTE)."
  | "filtered" =>
    "Add a 'filtered' CTE to remove soft deletes and null PKs. " ++
      "Fivetran: coalesce(_fivetran_deleted, false) = false. " ++
      "Estuary: _operation_type != 'd'. See docs/conventions/staging.md (filtered CTE)."
  | "enhanced" =>
    "Add an 'enhanced' CTE with surrogate key, computed flags, and _loaded_at. " ++
      "Keep it light. See docs/conventions/staging.md (enhanced CTE)."
  | "final" =>
    "Add a 'final' CTE with an explicit column list grouped by category. " ++
      "This is the output contract. See docs/conventions/staging.md (final CTE)."
  | other => "Add the '" ++ other ++ "' CTE per docs/conventions/staging.md."

/-- The code of a missing block. -/
def missingCode (name : String) : String := "CTE_MISSING_" ++ name.map Char.toUpper

/-- Every required block is there. A model with no blocks at all is told so once. -/
def checkBlockPresence (severity : Severity) (m : Model) : List Violation :=
  match m.blocks with
  | [] =>
    [blockPresence.violation severity "No CTEs found. Staging models must use the 5-CTE pattern."
      none
      ("Structure the model with: " ++ String.intercalate ", " requiredBlocks ++
        ". See docs/conventions/staging.md.")]
  | _ :: _ =>
    (requiredBlocks.filter fun name => !m.hasBlock name).map fun name =>
      { blockPresence.violation severity ("Missing required CTE: '" ++ name ++ "'.") none
          (blockGuidance name) with
        code := missingCode name }

/-- The first block that is not where the expected names want it: the first that differs from the
name at its place, or the first for which no name is left. -/
def firstMisplaced? : List Block → List String → Option Block
  | [], _ => none
  | b :: _, [] => some b
  | b :: bs, n :: ns => if b.name = n then firstMisplaced? bs ns else some b

/-- The required blocks are in canonical order, each once. -/
def checkBlockOrder (severity : Severity) (m : Model) : List Violation :=
  let actual := m.blocks.filter fun b => requiredBlocks.contains b.name
  let expected := requiredBlocks.filter m.hasBlock
  let names := actual.map (·.name)
  if names = expected then []
  else
    [blockOrder.violation severity
      ("CTEs are out of order. Found: " ++ quotedList names ++ ", expected: " ++
        quotedList expected ++ ".")
      ((firstMisplaced? actual expected).map (·.line))
      ("Reorder CTEs to: " ++ String.intercalate " → " requiredBlocks ++ ".")]

/-! ## Markers of the enhanced block -/

/-- The raw text of the `enhanced` block. -/
def enhancedRegion (m : Model) : List Char := (isolate? "enhanced".toList m.raw).getD []

/-- A surrogate key: the name of the function that makes one, or a word that ends in `_sk`. -/
def surrogateMarker : Recogniser := fun cs =>
  match Recogniser.folded "surrogate_key".toList cs with
  | some rest => some rest
  | none =>
    match Recogniser.folded ['_', 's', 'k'] cs with
    | some rest => if isWordAt rest.head? then none else some rest
    | none => none

/-- The enhanced block, when there is one, has a surrogate key. -/
def checkSurrogateKey (severity : Severity) (m : Model) : List Violation :=
  match m.block? "enhanced" with
  | none => []
  | some block =>
    if occurs surrogateMarker (enhancedRegion m) then []
    else
      [surrogateKey.violation severity "No surrogate key found in 'enhanced' CTE." (some block.line)
        ("Add a surrogate key in enhanced:\n  " ++
          "\x7b\x7b dbt_utils.generate_surrogate_key(['primary_key']) \x7d\x7d as entity_sk")]

/-- The enhanced block, when there is one, mentions the load timestamp. -/
def checkLoadedAt (severity : Severity) (m : Model) : List Violation :=
  match m.block? "enhanced" with
  | none => []
  | some block =>
    if containsText "_loaded_at".toList (enhancedRegion m) then []
    else
      [loadedAt.violation severity "No '_loaded_at' timestamp in 'enhanced' CTE." (some block.line)
        "Add to the enhanced CTE:\n  current_timestamp() as _loaded_at"]

/-! ## The final block -/

/-- Whether a column list names several columns: it is not a lone star and holds a comma or a line
break. -/
def isExplicit (list : List Char) : Bool :=
  list != ['*'] && (list.contains ',' || list.contains '\n')

/-- The final block, when there is one, starts with a selection of several columns. -/
def checkFinalExplicitColumns (severity : Severity) (m : Model) : List Violation :=
  match m.block? "final" with
  | none => []
  | some block =>
    if ((isolate? "final".toList m.stripped).bind selectList).any isExplicit then []
    else
      [finalExplicitColumns.violation severity
        "'final' CTE uses SELECT * or has no explicit column list." (some block.line)
        ("Replace SELECT * in final with an explicit, logically grouped column list. " ++
          "This defines the model's output contract. " ++
          "See docs/conventions/staging.md (final CTE).")]

/-! ## Grouping comments -/

/-- The start of a comment and the white space after it. -/
def commentStart : Recogniser := fun cs => (Recogniser.literal ['-', '-'] cs).map skipWhite

/-- A comment that starts with a given word, in any case. -/
def groupComment (word : String) : Recogniser := fun cs =>
  (commentStart cs).bind (Recogniser.folded word.toList)

/-- A comment that starts with `metadata`, with or without `dbt` before it. -/
def metadataComment : Recogniser := fun cs => do
  let cs ← commentStart cs
  match (Recogniser.folded ['d', 'b', 't'] cs).bind Recogniser.white1 with
  | some rest => Recogniser.folded "metadata".toList rest
  | none => Recogniser.folded "metadata".toList cs

/-- The comments that head a group of columns. -/
def groupComments : List Recogniser :=
  [groupComment "identifiers", groupComment "dates", groupComment "descriptive",
    groupComment "system", groupComment "audit", metadataComment, groupComment "ingestion"]

/-- How many different groups a text has. -/
def groupCount (text : List Char) : Nat := groupComments.countP fun r => occurs r text

/-- A model with a `renamed` or `final` block has two groups of columns at least. -/
def checkColumnGrouping (severity : Severity) (m : Model) : List Violation :=
  match (m.block? "renamed").or (m.block? "final") with
  | none => []
  | some block =>
    if 2 ≤ groupCount m.stripped then []
    else
      [columnGrouping.violation severity
        "Missing column grouping comments (-- identifiers, -- dates, etc.)." (some block.line)
        ("Add grouping comments in renamed and final CTEs:\n  -- identifiers\n  -- dates\n" ++
          "  -- descriptive fields\n  -- system / audit\n  -- dbt metadata")]

/-! ## The closing selection -/

/-- The rest of a line that holds white space only: a line break is reached, or the end. -/
def restOfLineIsWhite (cs : List Char) : Bool :=
  (cs.takeWhile isWhite).contains '\n' || (skipWhite cs).isEmpty

/-- At the start of a line, a selection of everything from one name that ends its line. -/
def plainSelection (before : Option Char) (cs : List Char) : Option Unit := do
  guard (before = none ∨ before = some '\n')
  let cs ← selectKeyword (skipWhite cs)
  let cs ← Recogniser.white1 cs
  let cs ← Recogniser.literal ['*'] cs
  let cs ← Recogniser.white1 cs
  let cs ← fromClause cs
  let cs ← Recogniser.word cs
  guard (restOfLineIsWhite cs)

/-- A model with a `final` block selects everything from one name on a line of its own. -/
def checkFinalSelect (severity : Severity) (m : Model) : List Violation :=
  if !m.hasBlock "final" || (scan? plainSelection none m.stripped).isSome then []
  else
    [finalSelect.violation severity "Model should end with 'select * from final'." none
      "Add 'select * from final' as the last line."]

end RuleId

end StagingAudit

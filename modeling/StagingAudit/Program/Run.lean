import StagingAudit.Program.Check

/-!
# Running the program

The whole program: what a list of arguments leaves behind in a world. Beside `check` there are
`init`, which writes a settings file with every setting explained, and `list-rules`.
-/

namespace StagingAudit

/-! ## Listing the rules -/

/-- One line of the table of rules. -/
def ruleLine (code name severity description : String) : String :=
  padRight 24 code ++ " " ++ padRight 24 name ++ " " ++ padRight 8 severity ++ " " ++ description

/-- The table of rules and how to configure them. -/
def ruleTable : String :=
  joinLines
    (["Available rules:", "", ruleLine "Code" "Name" "Severity" "Description",
      String.ofList (List.replicate 100 '-')] ++
      (battery.map fun r => ruleLine r.id.code r.id.name r.severity.label r.id.description) ++
      ["", "cte-presence reports each missing block as CTE_MISSING_<NAME>.", "",
        "Disable a rule or change its severity in staging-lint.toml, e.g.:",
        "  [rules.surrogate-key]", "  enabled = false", ""])

/-! ## Writing a settings file -/

/-- The settings file that `init` writes. -/
def initialSettings : String :=
  joinLines
    ["# staging-lint configuration", "", "[analyzer]",
      "# Project root, relative to this file; reported paths are relative to it",
      "# root = \".\"", "",
      "# Directories searched when no paths are given",
      "paths = [\"models/operations/staging\"]", "",
      "# Path substrings or glob patterns to skip",
      "exclude = [\"wiserock_tables\"]", "",
      "# Worker threads (default: one per CPU)",
      "# parallelism = 4", "", "[conventions]",
      "materialization = \"view\"",
      "required_tag = \"staging\"",
      "canonical_third_tag = \"formentera\"",
      "# Directory whose child names the source system",
      "anchor_dir = \"staging\"", "",
      "# Expected first tag when it differs from the source directory name",
      "[conventions.source_tags]",
      "# prodview_v2 = \"prodview\"", "",
      "# Rule configurations",
      "# Each rule can be enabled/disabled and have its severity overridden", "",
      "# [rules.surrogate-key]", "# enabled = false", "",
      "# [rules.final-select]", "# severity = \"error\"", ""]

/-- The name of the settings file that `init` writes. -/
def initialName : String := "staging-lint.toml"

/-- What `init` says when it has written the file. -/
def initMessage : String :=
  joinLines
    ["Created " ++ initialName, "", "Next steps:",
      "  1. Edit " ++ initialName ++ " to match your project conventions",
      "  2. Run: staging-lint check", ""]

/-- Runs the `init` command. -/
def World.init (w : World) (force : Bool) : Outcome :=
  if w.tree.exists? w.cwd (.ofString initialName) && !force then
    { exit := 2
      stderr := ["Error: Configuration file already exists at " ++ initialName ++
        ". Use --force to overwrite."]
      tree := w.tree }
  else
    match w.tree.write w.cwd initialName.toList (encode initialSettings.toList) with
    | .error fault =>
      { exit := 2
        stderr := ["Error: Failed to write " ++ initialName ++ ": " ++ fault.message]
        tree := w.tree }
    | .ok tree => { stdout := initMessage, tree }

/-! ## The program -/

/-- The name and version of the program. -/
def versionText : String := "staging-lint 0.1.0\n"

/-- How the program is used. -/
def usageText : String :=
  joinLines
    ["Structural linter for dbt staging models", "",
      "Usage: staging-lint [OPTIONS] <COMMAND>", "",
      "Commands:",
      "  check       Validate staging models",
      "  list-rules  List available rules",
      "  init        Initialize configuration file", "",
      "Options:",
      "  -v, --verbose          Enable verbose output",
      "  -c, --config <CONFIG>  Path to configuration file",
      "  -h, --help             Print help",
      "  -V, --version          Print version", ""]

/-- Runs what the arguments ask for. -/
def World.perform (w : World) (i : Invocation) : Outcome :=
  match i.task with
  | .check args => w.check i.config args
  | .listRules => { stdout := ruleTable, tree := w.tree }
  | .init force => w.init force

/-- Runs the program with arguments. -/
def World.run (w : World) (args : List String) : Except Halt Outcome :=
  (Invocation.ofArguments args).map w.perform

/-- What is left behind when the arguments do not lead to a run. -/
def World.halt (w : World) : Halt → Outcome
  | .usage => { exit := 2, stderr := [usageText], tree := w.tree }
  | .version => { stdout := versionText, tree := w.tree }
  | .help => { stdout := usageText, tree := w.tree }

end StagingAudit

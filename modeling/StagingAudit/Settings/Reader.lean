import StagingAudit.Settings.Basic
import StagingAudit.Toml.Document

/-!
# Settings from TOML

A settings file is a TOML document. Keys that mean nothing are passed over; a key that means
something has to have a value of the right kind. A record is a table, or a list of its values in
the order of its fields; a date or time stands for a table with one key of no meaning.
-/

namespace StagingAudit

namespace Toml

/-- The key under which a date or time is found when it is looked at as a table. -/
def momentKey : String := "$__toml_private_datetime"

/-- The text, if the value is one. -/
def string? : Toml → Option String
  | string s => some s
  | _ => none

/-- The truth value, if the value is one. -/
def boolean? : Toml → Option Bool
  | boolean b => some b
  | _ => none

/-- The number, if the value is a whole one that is not negative. -/
def natural? : Toml → Option Nat
  | integer (.ofNat n) => some n
  | _ => none

/-- The items, if the value is a list. -/
def items? : Toml → Option (List Toml)
  | array items => some items
  | tables items => some items
  | _ => none

/-- The items, each read by `f`, if the value is a list. -/
def list? {α : Type} (f : Toml → Option α) (t : Toml) : Option (List α) := t.items?.bind (·.mapM f)

/-- The entries, if the value is a table. -/
def entries? : Toml → Option Entries
  | table _ entries => some entries
  | moment text => some [(momentKey, string text)]
  | _ => none

/-- The entries, their values read by `f`, if the value is a table. -/
def record? {α : Type} (f : Toml → Option α) (t : Toml) : Option (List (String × α)) :=
  t.entries?.bind fun entries => entries.mapM fun (key, value) => (f value).map (key, ·)

/-- A record's values in the order of its fields. -/
def fields? (names : List String) (t : Toml) : Option (List (Option Toml)) :=
  match t.entries? with
  | some entries => some (names.map fun n => entries.lookup n)
  | none => t.items?.map fun items => (List.range names.length).map fun i => items[i]?

/-- Whether a table or list is empty. -/
def isEmpty : Toml → Bool
  | table _ [] => true
  | array [] => true
  | _ => false

/-- A field that takes its default when it is left out. -/
def field {α : Type} (default : α) (f : Toml → Option α) : Option Toml → Option α
  | some t => f t
  | none => some default

end Toml

/-- The severity of a TOML value: its word, or a table with the word as its only key and nothing
in it. -/
def Severity.ofToml? : Toml → Option Severity
  | .string s => Severity.ofLabel? s
  | .table _ [(s, value)] => if value.isEmpty then Severity.ofLabel? s else none
  | _ => none

/-- What a TOML value says about one rule. -/
def RuleSettings.ofToml? (t : Toml) : Option RuleSettings := do
  match ← t.fields? ["enabled", "severity"] with
  | [enabled, severity] =>
    return {
      enabled := ← Toml.field none (fun t => t.boolean?.map some) enabled
      severity := ← Toml.field none (fun t => (Severity.ofToml? t).map some) severity }
  | _ => none

/-- What a TOML value says about where the models are. -/
def Scope.ofToml? (t : Toml) : Option Scope := do
  let usual : Scope := {}
  let path (t : Toml) : Option Path := t.string?.map .ofString
  match ← t.fields? ["root", "paths", "exclude", "parallelism"] with
  | [root, paths, exclude, parallelism] =>
    return {
      root := ← Toml.field usual.root path root
      paths := ← Toml.field usual.paths (Toml.list? path) paths
      exclude := ← Toml.field usual.exclude (Toml.list? Toml.string?) exclude
      parallelism := ← Toml.field none (fun t => t.natural?.map some) parallelism }
  | _ => none

/-- What a TOML value says about the conventions. -/
def Conventions.ofToml? (t : Toml) : Option Conventions := do
  let usual : Conventions := {}
  match ← t.fields?
      ["materialization", "required_tag", "canonical_third_tag", "anchor_dir", "source_tags"] with
  | [materialization, requiredTag, thirdTag, anchorDir, sourceTags] =>
    return {
      materialization := ← Toml.field usual.materialization Toml.string? materialization
      requiredTag := ← Toml.field usual.requiredTag Toml.string? requiredTag
      thirdTag := ← Toml.field usual.thirdTag Toml.string? thirdTag
      anchorDir := ← Toml.field usual.anchorDir Toml.string? anchorDir
      sourceTags := ← Toml.field usual.sourceTags (Toml.record? Toml.string?) sourceTags }
  | _ => none

/-- Why a text is no settings file. -/
inductive SettingsFault where
  /-- it is not TOML -/
  | malformed
  /-- a value is of the wrong kind -/
  | wrongKind
  deriving DecidableEq, Repr

/-- A fault in words. -/
def SettingsFault.message : SettingsFault → String
  | malformed => "not a valid TOML document"
  | wrongKind => "a value is of the wrong kind"

namespace Settings

/-- The settings in the outermost table of a document. -/
def ofEntries? (entries : Toml.Entries) : Option Settings := do
  return {
    scope := ← Toml.field {} Scope.ofToml? (entries.lookup "analyzer")
    conventions := ← Toml.field {} Conventions.ofToml? (entries.lookup "conventions")
    rules := ← Toml.field [] (Toml.record? RuleSettings.ofToml?) (entries.lookup "rules") }

/-- The settings in a text. -/
def parse (text : List Char) : Except SettingsFault Settings :=
  match Toml.parse? text with
  | none => .error .malformed
  | some entries =>
    match ofEntries? entries with
    | none => .error .wrongKind
    | some s => .ok s

end Settings

end StagingAudit

import StagingAudit.Program.Check
import StagingAudit.Proofs.FileTree.Resolution
import StagingAudit.Proofs.Path.Ancestors

/-!
# Where a project's settings come from

The search for settings climbs the text of the start path: it goes by its components, and `..` is
one of them. The directories that it looks into are therefore those on the *way* to the start
directory, which need not be above it. **The directory that holds the settings is the start
directory or one above it exactly when the rest of the way does not leave it for another one**
(`projectSettings_above_start_iff`); `projectSettings_of_sibling` is a run that takes the settings
of a neighbour.
-/

namespace StagingAudit

namespace SettingsSource

variable {t : FileTree} {cwd start dir file : Path} {dirs : List Path} {globalDir : Option Path}

/-- The settings file of a directory is there and has one of the names of such files. -/
theorem exists_of_inDirectory? (h : inDirectory? t cwd dir = some file) :
    ∃ name ∈ projectNames, file = dir.join name ∧ t.isFile cwd file := by
  have hfile := List.find?_some h
  obtain ⟨name, hname, rfl⟩ := List.mem_map.1 (List.mem_of_find?_eq_some h)
  exact ⟨name, hname, rfl, hfile⟩

theorem exists_of_nearest? (h : nearest? t cwd dirs = some file) :
    ∃ dir ∈ dirs, inDirectory? t cwd dir = some file := by
  induction dirs with
  | nil => cases h
  | cons dir dirs ih =>
    rw [nearest?] at h
    split at h
    · next found hfound => exact ⟨dir, .head _, hfound.trans h⟩
    · split at h
      · cases h
      · obtain ⟨dir', hmem, hdir'⟩ := ih h
        exact ⟨dir', .tail _ hmem, hdir'⟩

theorem nearest?_of_resolve (h : resolve t cwd start none globalDir = project file) :
    nearest? t cwd start.ancestors = some file := by
  rw [resolve] at h
  split at h
  · next found hfound => rw [hfound, project.inj h]
  · split at h <;> cases h

/-- The names of settings files are no absolute paths. -/
theorem isAbsolute_of_mem_projectNames {name : Path} (h : name ∈ projectNames) :
    name.isAbsolute = false := by
  have hall : ∀ name ∈ projectNames, name.isAbsolute = false := by decide
  exact hall name h

end SettingsSource

/-- The directory in which the search of a run for its settings starts. -/
def World.startDirectory (w : World) (root : Option Path) : Path :=
  (root.map w.cwd.join).getD w.cwd

theorem World.isAbsolute_startDirectory {w : World} (h : w.cwd.isAbsolute) (root : Option Path) :
    (w.startDirectory root).isAbsolute := by
  cases root with
  | none => exact h
  | some root => exact Path.isAbsolute_join h

/-- **When a project's settings come from the start directory or from above it.** Let a run without
a named settings file take the settings of a project. The file is in a directory that the text of
the start path goes through, and this directory is somewhere in the tree. If the start path leads
somewhere too, then it leads to that directory or below it exactly when the rest of the way does:
the `..` in it that take away no name of its own climb out of some directories, and the names that
are left have to begin with the names of these. That is so whenever the rest holds no `..`. -/
theorem projectSettings_above_start_iff (w : World) (root : Option Path) {file : Path}
    (hcwd : w.cwd.isAbsolute) (h : w.settingsSource none root = .project file) :
    ∃ dir ∈ (w.startDirectory root).ancestors, ∃ name ∈ SettingsSource.projectNames,
      file = dir.join name ∧
      ∃ rest, (w.startDirectory root).components = dir.components ++ rest ∧
        ∃ place, w.tree.locate w.cwd dir = .ok place ∧
          ∀ start, w.tree.locate w.cwd (w.startDirectory root) = .ok start →
            (place <+: start ↔
              place.rtake (Way.ofSteps rest).climb <+: (Way.ofSteps rest).names) ∧
            (.parent ∉ rest → place <+: start) := by
  have hstart := World.isAbsolute_startDirectory hcwd root
  obtain ⟨dir, hdir, hfound⟩ :=
    SettingsSource.exists_of_nearest? (SettingsSource.nearest?_of_resolve h)
  obtain ⟨name, hname, hfile, hisFile⟩ := SettingsSource.exists_of_inDirectory? hfound
  obtain ⟨habsolute, rest, hrest⟩ := Path.isPrefix_of_mem_ancestors hstart hdir
  obtain ⟨place, hplace⟩ : ∃ place, w.tree.locate w.cwd dir = .ok place := by
    rw [hfile] at hisFile
    obtain ⟨trail, htrail⟩ := FileTree.exists_trailOf_of_isFile hisFile
    exact FileTree.exists_locate_of_join habsolute
      (SettingsSource.isAbsolute_of_mem_projectNames hname) htrail
  refine ⟨dir, hdir, name, hname, hfile, rest, hrest.symm, place, hplace, ?_⟩
  intro start hlocate
  -- the start path leads to the directory first, and then by the rest of its way
  have hway : start = (Way.ofSteps rest).goFrom place := by
    rw [FileTree.locate_eq hstart hlocate, FileTree.locate_eq habsolute hplace,
      ← Way.foldl_stepFrom, ← List.foldl_append, hrest]
  have hiff : place <+: start ↔
      place.rtake (Way.ofSteps rest).climb <+: (Way.ofSteps rest).names := by
    rw [hway]
    exact Way.isPrefix_goFrom_iff
  refine ⟨hiff, fun hparent => hiff.2 ?_⟩
  rw [Way.climb_ofSteps hparent, List.rtake_zero]
  exact List.nil_prefix

/-- Two directories side by side, the first of which has settings and is the current one. -/
def neighbours : World where
  tree := .directory [("w".toList, .directory
    [("a".toList, .directory
      [("staging-lint.toml".toList, .file []),
        ("x".toList, .directory [("y".toList, .directory []), ("z".toList, .directory [])])]),
      ("b".toList, .directory [])])]
  cwd := .ofString "/w/a"

/-- A start path that goes back inside the first directory stays below it. -/
theorem projectSettings_above_start_detour :
    neighbours.cwd.isAbsolute ∧
      neighbours.settingsSource none (some (.ofString "x/y/../z")) =
        .project (.ofString "/w/a/staging-lint.toml") ∧
      neighbours.tree.locate neighbours.cwd (.ofString "/w/a") = .ok ["w".toList, "a".toList] ∧
      ["w".toList, "a".toList] <+: ["w".toList, "a".toList, "x".toList, "z".toList] := by
  have hcwd : neighbours.cwd.isAbsolute := rfl
  have hsource : neighbours.settingsSource none (some (.ofString "x/y/../z")) =
      .project (.ofString "/w/a/staging-lint.toml") := by decide +kernel
  have hstart : neighbours.tree.locate neighbours.cwd
      (neighbours.startDirectory (some (.ofString "x/y/../z"))) =
        .ok ["w".toList, "a".toList, "x".toList, "z".toList] := by decide +kernel
  obtain ⟨dir, hdir, name, hname, hfile, rest, hrest, place, hplace, hiff⟩ :=
    projectSettings_above_start_iff neighbours (some (.ofString "x/y/../z")) hcwd hsource
  -- only one of the ancestors can hold the file
  have hholds : ∀ dir ∈ (neighbours.startDirectory (some (.ofString "x/y/../z"))).ancestors,
      ∀ name ∈ SettingsSource.projectNames,
        Path.ofString "/w/a/staging-lint.toml" = dir.join name → dir = .ofString "/w/a" := by
    decide +kernel
  obtain rfl := hholds dir hdir name hname hfile
  obtain rfl : [.name "x".toList, .name "y".toList, .parent, .name "z".toList] = rest :=
    List.append_cancel_left (Eq.trans (by decide +kernel) hrest)
  obtain rfl : ["w".toList, "a".toList] = place :=
    Except.ok.inj (Eq.trans (by decide +kernel) hplace)
  exact ⟨hcwd, hsource, hplace, (hiff _ hstart).1.2 (by decide +kernel)⟩

/-- A run that starts in the second directory and names it by way of the first takes the settings
of the first, which is neither the second nor above it. -/
theorem projectSettings_of_sibling :
    neighbours.settingsSource none (some (.ofString "../b")) =
        .project ((Path.ofString "/w/a").join (.ofString "staging-lint.toml")) ∧
      neighbours.tree.locate neighbours.cwd (.ofString "/w/a") = .ok ["w".toList, "a".toList] ∧
      neighbours.tree.locate neighbours.cwd
        (neighbours.startDirectory (some (.ofString "../b"))) = .ok ["w".toList, "b".toList] ∧
      ¬["w".toList, "a".toList] <+: ["w".toList, "b".toList] := by
  decide +kernel

end StagingAudit

import StagingAudit.Proofs.FileTree.Change
import StagingAudit.Proofs.Settings.Origin

/-!
# The nearest settings

The search for settings goes through the ancestors of the start path with two things to look for in
each: settings, which it takes, and the mark of the top of a project, behind which it does not go.
**It finds the first directory that has settings, if none before it is marked**
(`nearest?_eq_some_iff`); settings beside the mark count, and a plain name goes before a hidden one.
What is behind a marked directory does not matter to the search (`nearest?_congr`).

So files directly above a marked directory change the answer of a run in two ways only
(`resolve_nearest_inside_project`): they are the user's own settings, or a `..` in the start path
leads up there before the search comes to the mark. Both happen (`resolve_changed_from_above`).
-/

namespace StagingAudit

namespace SettingsSource

/-- The preferred name of a project's settings file. -/
def plainName : Path := .ofString "staging-lint.toml"

/-- The other name of a project's settings file. -/
def hiddenName : Path := .ofString ".staging-lint.toml"

/-- The name of the user's own settings file. -/
def globalName : Path := .ofString "config.toml"

/-- The names that the search looks for in a directory. -/
def searchedNames : List Path := [plainName, hiddenName, projectMark]

variable {t t' : FileTree} {cwd start dir top file name : Path} {dirs : List Path}
  {globalDir : Option Path} {k j : Nat}

/-- A directory has settings of a name: the plain one, or the hidden one where there is no plain
one. -/
structure IsChosen (t : FileTree) (cwd dir name : Path) : Prop where
  /-- the file is there -/
  isFile : t.isFile cwd (dir.join name)
  /-- the plain name goes first -/
  preferred : name = plainName ∨ name = hiddenName ∧ ¬t.isFile cwd (dir.join plainName)

/-- The search goes on behind a directory: it has no settings and is not the top of a project. -/
structure IsPassed (t : FileTree) (cwd dir : Path) : Prop where
  /-- there are no settings of the plain name -/
  plain : ¬t.isFile cwd (dir.join plainName)
  /-- there are no settings of the hidden name -/
  hidden : ¬t.isFile cwd (dir.join hiddenName)
  /-- there is no mark -/
  mark : ¬t.isFile cwd (dir.join projectMark)

/-- The nearest settings in some directories: the `k`-th has them, and those before it have none
and are not the top of a project. -/
structure IsNearest (t : FileTree) (cwd : Path) (dirs : List Path) (k : Nat) (dir name : Path) :
    Prop where
  /-- it is one of the directories -/
  found : dirs[k]? = some dir
  /-- it has settings -/
  chosen : IsChosen t cwd dir name
  /-- the directories before it do not end the search -/
  passed : ∀ i < k, ∀ before, dirs[i]? = some before → IsPassed t cwd before

/-! ## The search

In each directory the search looks for settings first and for the mark afterwards, so settings
beside the mark are found. `IsNearest` says what comes of this without a recursion: the directory by
its number, and what was not found before it. The step from a list of directories to a longer one is
made for `IsNearest` alone (`isNearest_zero_iff`, `isNearest_succ_iff`); the search does the same
step. -/

theorem inDirectory?_eq (t : FileTree) (cwd dir : Path) :
    inDirectory? t cwd dir =
      if t.isFile cwd (dir.join plainName) then some (dir.join plainName)
      else if t.isFile cwd (dir.join hiddenName) then some (dir.join hiddenName) else none := by
  have hnames : projectNames.map dir.join = [dir.join plainName, dir.join hiddenName] := rfl
  rw [inDirectory?, hnames, List.find?_cons, List.find?_cons, List.find?_nil]
  cases t.isFile cwd (dir.join plainName) <;> cases t.isFile cwd (dir.join hiddenName) <;> rfl

theorem inDirectory?_eq_some_iff :
    inDirectory? t cwd dir = some file ↔
      ∃ name, IsChosen t cwd dir name ∧ file = dir.join name := by
  rw [inDirectory?_eq]
  split
  · next hplain =>
    constructor
    · rintro ⟨⟩
      exact ⟨plainName, ⟨hplain, .inl rfl⟩, rfl⟩
    · rintro ⟨name, ⟨-, rfl | ⟨rfl, hnone⟩⟩, rfl⟩
      · rfl
      · exact absurd hplain hnone
  · next hplain =>
    split
    · next hhidden =>
      constructor
      · rintro ⟨⟩
        exact ⟨hiddenName, ⟨hhidden, .inr ⟨rfl, hplain⟩⟩, rfl⟩
      · rintro ⟨name, ⟨hfile, rfl | ⟨rfl, -⟩⟩, rfl⟩
        · exact absurd hfile hplain
        · rfl
    · next hhidden =>
      refine iff_of_false nofun ?_
      rintro ⟨name, ⟨hfile, rfl | ⟨rfl, -⟩⟩, -⟩
      · exact hplain hfile
      · exact hhidden hfile

theorem isNearest_zero_iff :
    IsNearest t cwd (dir :: dirs) 0 top name ↔ dir = top ∧ IsChosen t cwd dir name := by
  constructor
  · rintro ⟨hfound, hchosen, -⟩
    obtain rfl := Option.some.inj hfound
    exact ⟨rfl, hchosen⟩
  · rintro ⟨rfl, hchosen⟩
    exact ⟨rfl, hchosen, nofun⟩

theorem isNearest_succ_iff :
    IsNearest t cwd (dir :: dirs) (k + 1) top name ↔
      IsPassed t cwd dir ∧ IsNearest t cwd dirs k top name := by
  constructor
  · rintro ⟨hfound, hchosen, hpassed⟩
    refine ⟨hpassed 0 (Nat.succ_pos k) dir rfl, hfound, hchosen, fun i hi => ?_⟩
    exact hpassed (i + 1) (Nat.succ_lt_succ hi)
  · rintro ⟨hdir, hfound, hchosen, hpassed⟩
    refine ⟨hfound, hchosen, fun i hi before hbefore => ?_⟩
    cases i with
    | zero => exact Option.some.inj hbefore ▸ hdir
    | succ i => exact hpassed i (Nat.lt_of_succ_lt_succ hi) before hbefore

theorem isPassed_iff :
    IsPassed t cwd dir ↔ inDirectory? t cwd dir = none ∧ ¬t.isFile cwd (dir.join projectMark) := by
  rw [inDirectory?_eq]
  constructor
  · rintro ⟨hplain, hhidden, hmark⟩
    rw [if_neg hplain, if_neg hhidden]
    exact ⟨rfl, hmark⟩
  · rintro ⟨hnone, hmark⟩
    split at hnone
    · cases hnone
    · next hplain =>
      split at hnone
      · cases hnone
      · next hhidden => exact ⟨hplain, hhidden, hmark⟩

/-- **The search finds the nearest settings.** -/
theorem nearest?_eq_some_iff :
    nearest? t cwd dirs = some file ↔
      ∃ k dir name, IsNearest t cwd dirs k dir name ∧ file = dir.join name := by
  induction dirs with
  | nil => exact iff_of_false nofun fun ⟨k, dir, name, h, _⟩ => nomatch h.found
  | cons first dirs ih =>
    -- the settings are in the first directory, or it is passed
    have hsplit :
        (∃ k dir name, IsNearest t cwd (first :: dirs) k dir name ∧ file = dir.join name) ↔
          inDirectory? t cwd first = some file ∨
            IsPassed t cwd first ∧ nearest? t cwd dirs = some file := by
      rw [inDirectory?_eq_some_iff, ih]
      constructor
      · rintro ⟨k, dir, name, h, rfl⟩
        cases k with
        | zero =>
          obtain ⟨rfl, hchosen⟩ := isNearest_zero_iff.1 h
          exact .inl ⟨name, hchosen, rfl⟩
        | succ k =>
          obtain ⟨hpassed, hrest⟩ := isNearest_succ_iff.1 h
          exact .inr ⟨hpassed, k, dir, name, hrest, rfl⟩
      · rintro (⟨name, hchosen, rfl⟩ | ⟨hpassed, k, dir, name, hrest, rfl⟩)
        · exact ⟨0, first, name, isNearest_zero_iff.2 ⟨rfl, hchosen⟩, rfl⟩
        · exact ⟨k + 1, dir, name, isNearest_succ_iff.2 ⟨hpassed, hrest⟩, rfl⟩
    rw [hsplit, isPassed_iff, nearest?]
    cases inDirectory? t cwd first with
    | some found => simp
    | none => simp

theorem nearest?_eq_none_iff :
    nearest? t cwd dirs = none ↔ ¬∃ k dir name, IsNearest t cwd dirs k dir name := by
  rw [Option.eq_none_iff_forall_ne_some]
  constructor
  · rintro h ⟨k, dir, name, hnearest⟩
    exact h (dir.join name) (nearest?_eq_some_iff.2 ⟨k, dir, name, hnearest, rfl⟩)
  · intro h file hfile
    obtain ⟨k, dir, name, hnearest, -⟩ := nearest?_eq_some_iff.1 hfile
    exact h ⟨k, dir, name, hnearest⟩

/-! ## The source of the settings -/

theorem globalFile?_eq_some_iff :
    globalFile? t cwd globalDir = some file ↔
      ∃ dir, globalDir = some dir ∧ file = dir.join globalName ∧ t.isFile cwd file := by
  cases globalDir with
  | none => simp [globalFile?]
  | some dir =>
    simp only [globalFile?, Option.some.injEq, exists_eq_left']
    split
    · next hfile =>
      constructor
      · rintro ⟨⟩
        exact ⟨rfl, hfile⟩
      · rintro ⟨rfl, -⟩
        rfl
    · next hnone =>
      refine iff_of_false nofun ?_
      rintro ⟨rfl, hfile⟩
      exact hnone hfile

theorem globalFile?_eq_none_iff :
    globalFile? t cwd globalDir = none ↔
      ∀ dir, globalDir = some dir → ¬t.isFile cwd (dir.join globalName) := by
  rw [Option.eq_none_iff_forall_ne_some]
  constructor
  · rintro h dir rfl hfile
    exact h (dir.join globalName) (globalFile?_eq_some_iff.2 ⟨dir, rfl, rfl, hfile⟩)
  · intro h file hfile
    obtain ⟨dir, hdir, rfl, hisFile⟩ := globalFile?_eq_some_iff.1 hfile
    exact h dir hdir hisFile

theorem resolve_eq_project_iff :
    resolve t cwd start none globalDir = project file ↔
      nearest? t cwd start.ancestors = some file := by
  rw [resolve]
  cases nearest? t cwd start.ancestors with
  | some found => simp
  | none => cases globalFile? t cwd globalDir <;> simp

theorem resolve_eq_global_iff :
    resolve t cwd start none globalDir = global file ↔
      nearest? t cwd start.ancestors = none ∧ globalFile? t cwd globalDir = some file := by
  rw [resolve]
  cases nearest? t cwd start.ancestors with
  | some found => simp
  | none => cases globalFile? t cwd globalDir <;> simp

theorem resolve_eq_builtIn_iff :
    resolve t cwd start none globalDir = builtIn ↔
      nearest? t cwd start.ancestors = none ∧ globalFile? t cwd globalDir = none := by
  rw [resolve]
  cases nearest? t cwd start.ancestors with
  | some found => simp
  | none => cases globalFile? t cwd globalDir <;> simp

/-! ## Changes above

The search asks each directory for three names, up to the first one that is marked. Two trees that
give the same answers up to there have the same nearest settings. A file elsewhere changes none of
these answers; so it remains to be seen which directories the search comes to before the mark, and
whether they can be above it in the tree. By their paths they are below it, but the search goes by
the text of the start path, and a `..` in the text leads up. -/

/-- Two trees answer the search in the same way in a directory. -/
def Agree (t t' : FileTree) (cwd dir : Path) : Prop :=
  ∀ name ∈ searchedNames, t'.isFile cwd (dir.join name) = t.isFile cwd (dir.join name)

theorem nearest?_congr (htop : dirs[j]? = some top) (hmark : t.isFile cwd (top.join projectMark))
    (hagree : ∀ i ≤ j, ∀ dir, dirs[i]? = some dir → Agree t t' cwd dir) :
    nearest? t' cwd dirs = nearest? t cwd dirs := by
  induction dirs generalizing j with
  | nil => cases htop
  | cons first dirs ih =>
    have hfirst := hagree 0 (Nat.zero_le j) first rfl
    have hsettings : inDirectory? t' cwd first = inDirectory? t cwd first := by
      rw [inDirectory?_eq, inDirectory?_eq, hfirst plainName (by decide),
        hfirst hiddenName (by decide)]
    rw [nearest?, nearest?, hsettings, hfirst projectMark (by decide)]
    cases j with
    | zero =>
      obtain rfl := Option.some.inj htop
      rw [if_pos hmark, if_pos hmark]
    | succ j => rw [ih htop fun i hi => hagree (i + 1) (Nat.succ_le_succ hi)]

theorem resolve_congr
    (hnearest : nearest? t' cwd start.ancestors = nearest? t cwd start.ancestors)
    (hglobal : ∀ dir, globalDir = some dir →
      t'.isFile cwd (dir.join globalName) = t.isFile cwd (dir.join globalName)) :
    resolve t' cwd start none globalDir = resolve t cwd start none globalDir := by
  have hfile : globalFile? t' cwd globalDir = globalFile? t cwd globalDir := by
    cases globalDir with
    | none => rfl
    | some dir =>
      have hdir := hglobal dir rfl
      rw [globalName] at hdir
      rw [globalFile?, globalFile?, hdir]
  rw [resolve, resolve, hnearest, hfile]

/-- The directories strictly above the `j`-th of a search, which is at `place`: those on the way to
it from the root, and those that the search would come to behind it. -/
structure IsAbove (t : FileTree) (cwd : Path) (dirs : List Path) (j : Nat) (place dir : Place) :
    Prop where
  /-- it is another directory -/
  ne : dir ≠ place
  /-- it is above in the tree or comes later in the search -/
  above : dir <+: place ∨
    ∃ k later, j < k ∧ dirs[k]? = some later ∧ t.locate cwd later = .ok dir

theorem isName_of_mem_searchedNames (h : name ∈ searchedNames) : FileTree.IsName name := by
  have hall : ∀ name ∈ searchedNames,
      '/' ∉ name.chars ∧ Path.component? name.chars = some (.name name.chars) := by decide
  exact ⟨(hall name h).1, (hall name h).2⟩

/-- A directory that the search comes to before the `j`-th is not above it, unless there is a `..`
that can lead there. Neither is the `j`-th itself. -/
theorem not_isAbove {i : Nat} {place : Place} (hstart : start.isAbsolute)
    (hdir : start.ancestors[i]? = some dir) (htop : start.ancestors[j]? = some top)
    (hplace : t.locate cwd top = .ok place) (hij : i ≤ j)
    (hparent : i < j → .parent ∉ start.components) :
    ¬IsAbove t cwd start.ancestors j place (FileTree.spelled dir) := by
  rintro ⟨hne, habove⟩
  obtain ⟨habsolute, htopPrefix⟩ :=
    Path.isPrefix_of_mem_ancestors hstart (List.mem_of_getElem? htop)
  obtain rfl := FileTree.locate_eq habsolute hplace
  rcases Nat.lt_or_eq_of_le hij with hlt | rfl
  · obtain ⟨-, hdirPrefix⟩ := Path.isPrefix_of_mem_ancestors hstart (List.mem_of_getElem? hdir)
    have hbelow : FileTree.spelled top <+: FileTree.spelled dir :=
      FileTree.isPrefix_spelled (Path.isPrefix_of_ancestors hstart hdir htop hij)
        fun hmem => hparent hlt (hdirPrefix.mem hmem)
    have habove : FileTree.spelled dir <+: FileTree.spelled top := by
      rcases habove with habove | ⟨k, later, hjk, hlater, hlocate⟩
      · exact habove
      · obtain ⟨hlaterAbsolute, -⟩ :=
          Path.isPrefix_of_mem_ancestors hstart (List.mem_of_getElem? hlater)
        have hprefix := Path.isPrefix_of_ancestors hstart htop hlater (Nat.le_of_lt hjk)
        rw [FileTree.locate_eq hlaterAbsolute hlocate]
        exact FileTree.isPrefix_spelled hprefix fun hmem => hparent hlt (htopPrefix.mem hmem)
    exact hne (habove.eq_of_length_le hbelow.length_le)
  · obtain rfl := Option.some.inj (hdir.symm.trans htop)
    exact hne rfl

/-- **A run takes the nearest settings inside the project**, else the user's own, else the built-in
ones. Files directly above a directory with the mark have no say in it, unless they are the user's
own settings or a `..` in the start path leads up to them before the search comes to the mark. -/
theorem resolve_nearest_inside_project (t : FileTree) (cwd start : Path) (globalDir : Option Path)
    (hstart : start.isAbsolute) :
    (∀ file, resolve t cwd start none globalDir = project file ↔
      ∃ k dir name, IsNearest t cwd start.ancestors k dir name ∧ file = dir.join name) ∧
    (∀ file, resolve t cwd start none globalDir = global file ↔
      (¬∃ k dir name, IsNearest t cwd start.ancestors k dir name) ∧
        ∃ dir, globalDir = some dir ∧ file = dir.join globalName ∧ t.isFile cwd file) ∧
    (resolve t cwd start none globalDir = builtIn ↔
      (¬∃ k dir name, IsNearest t cwd start.ancestors k dir name) ∧
        ∀ dir, globalDir = some dir → ¬t.isFile cwd (dir.join globalName)) ∧
    ∀ j top, start.ancestors[j]? = some top → t.isFile cwd (top.join projectMark) →
      ∃ place, t.locate cwd top = .ok place ∧
        ∀ t', FileTree.ChangedIn (IsAbove t cwd start.ancestors j place) t t' →
          (.parent ∈ start.components →
            ∀ i < j, ∀ dir, start.ancestors[i]? = some dir → Agree t t' cwd dir) →
          (∀ dir, globalDir = some dir →
            t'.isFile cwd (dir.join globalName) = t.isFile cwd (dir.join globalName)) →
          resolve t' cwd start none globalDir = resolve t cwd start none globalDir := by
  refine ⟨fun file => ?_, fun file => ?_, ?_, fun j top htop hmark => ?_⟩
  · rw [resolve_eq_project_iff, nearest?_eq_some_iff]
  · rw [resolve_eq_global_iff, nearest?_eq_none_iff, globalFile?_eq_some_iff]
  · rw [resolve_eq_builtIn_iff, nearest?_eq_none_iff, globalFile?_eq_none_iff]
  · have hmem := List.mem_of_getElem? htop
    obtain ⟨habsolute, -⟩ := Path.isPrefix_of_mem_ancestors hstart hmem
    obtain ⟨trail, htrail⟩ := FileTree.exists_trailOf_of_isFile hmark
    obtain ⟨place, hplace⟩ := FileTree.exists_locate_of_join habsolute
      (isName_of_mem_searchedNames (by decide)).isAbsolute htrail
    refine ⟨place, hplace, fun t' hchanged hback hglobal => ?_⟩
    refine resolve_congr (nearest?_congr htop hmark fun i hi dir hdir => ?_) hglobal
    by_cases hparent : i < j ∧ .parent ∈ start.components
    · exact hback hparent.2 i hparent.1 dir hdir
    · obtain ⟨hdirAbsolute, -⟩ :=
        Path.isPrefix_of_mem_ancestors hstart (List.mem_of_getElem? hdir)
      intro name hname
      refine (hchanged.isFile_join hdirAbsolute (isName_of_mem_searchedNames hname) ?_).symm
      exact not_isAbove hstart hdir htop hplace hi fun hlt hmem => hparent ⟨hlt, hmem⟩

/-- A project with a directory of models in it, and settings of the user elsewhere. -/
def projectTree : FileTree := .directory
  [("w".toList, .directory
    [("p".toList, .directory
      [("dbt_project.yml".toList, .file []), ("models".toList, .directory [])])]),
    ("home".toList, .directory [("config.toml".toList, .file [])])]

/-- The same with one more file, in the directory that the project is in. -/
def projectTreeWith (name : String) : FileTree :=
  projectTree.addFile ["w".toList, name.toList] []

theorem changedIn_projectTreeWith {name : String} (cwd : Path) (dirs : List Path) (j : Nat)
    (hfree : projectTree.isDirectoryAt ["w".toList, name.toList] = false) :
    FileTree.ChangedIn (IsAbove projectTree cwd dirs j ["w".toList, "p".toList])
      projectTree (projectTreeWith name) :=
  FileTree.changedIn_addFile ["w".toList] [] (by decide +kernel) hfree
    ⟨by decide, .inl (by decide)⟩

/-- Settings that are put above the project do not take the place of the user's own. -/
theorem resolve_nearest_inside_project_user :
    (Path.ofString "/w/p/models").isAbsolute ∧
      resolve (projectTreeWith "staging-lint.toml") (.ofString "/w")
        (.ofString "/w/p/models") none (some (.ofString "/home")) =
          .global (.ofString "/home/config.toml") := by
  have hstart : (Path.ofString "/w/p/models").isAbsolute := rfl
  obtain ⟨-, -, -, habove⟩ := resolve_nearest_inside_project projectTree (.ofString "/w")
    (.ofString "/w/p/models") (some (.ofString "/home")) hstart
  obtain ⟨place, hplace, hsame⟩ :=
    habove 1 (.ofString "/w/p") (by decide +kernel) (by decide +kernel)
  obtain rfl : ["w".toList, "p".toList] = place :=
    Except.ok.inj (Eq.trans (by decide +kernel) hplace)
  have hresolve := hsame (projectTreeWith "staging-lint.toml")
    (changedIn_projectTreeWith _ _ _ (by decide +kernel)) ?_ ?_
  · exact ⟨hstart, hresolve.trans (by decide +kernel)⟩
  · exact fun hparent => absurd hparent (by decide +kernel)
  · rintro dir ⟨⟩
    decide +kernel

/-- Two files above a project that change the answer: the user's settings, if they are looked for
there, and settings that a `..` in the start path leads to before the project. -/
theorem resolve_changed_from_above :
    (FileTree.ChangedIn (IsAbove projectTree (.ofString "/w") (Path.ofString "/w/p").ancestors 0
        ["w".toList, "p".toList]) projectTree (projectTreeWith "config.toml") ∧
      (Path.ofString "/w/p").ancestors[0]? = some (.ofString "/w/p") ∧
      projectTree.isFile (.ofString "/w") ((Path.ofString "/w/p").join projectMark) ∧
      projectTree.locate (.ofString "/w") (.ofString "/w/p") = .ok ["w".toList, "p".toList] ∧
      resolve projectTree (.ofString "/w") (.ofString "/w/p") none (some (.ofString "/w")) =
        .builtIn ∧
      resolve (projectTreeWith "config.toml") (.ofString "/w") (.ofString "/w/p") none
        (some (.ofString "/w")) = .global (.ofString "/w/config.toml")) ∧
    FileTree.ChangedIn (IsAbove projectTree (.ofString "/w") (Path.ofString "/w/p/..").ancestors 1
        ["w".toList, "p".toList]) projectTree (projectTreeWith "staging-lint.toml") ∧
      (Path.ofString "/w/p/..").ancestors[1]? = some (.ofString "/w/p") ∧
      ¬projectTree.isFile (.ofString "/w") ((Path.ofString "/w/p/..").join projectMark) ∧
      resolve projectTree (.ofString "/w") (.ofString "/w/p/..") none none = .builtIn ∧
      resolve (projectTreeWith "staging-lint.toml") (.ofString "/w") (.ofString "/w/p/..") none
        none = .project (.ofString "/w/p/../staging-lint.toml") := by
  refine ⟨⟨changedIn_projectTreeWith _ _ _ (by decide +kernel), ?_⟩,
    changedIn_projectTreeWith _ _ _ (by decide +kernel), ?_⟩
  · decide +kernel
  · decide +kernel

end SettingsSource

end StagingAudit

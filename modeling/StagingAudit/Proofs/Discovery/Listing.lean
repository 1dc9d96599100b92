import Mathlib
import StagingAudit.Proofs.Discovery.Models
import StagingAudit.Proofs.Path.Order

/-!
# Lists of found files

The default files of a project are gathered from several directories, which may overlap and may be
spelled in several ways, so one file may be found under several paths. The list is put in order, and
neighbours with the same components become one. **What comes of this is strictly increasing**
(`pairwise_sortPaths`), **and it depends only on which components were found**
(`map_components_sortPaths`). Those depend only on which directories are named: neither their order
nor repetitions show in the list, apart from how a path is spelled
(`defaultFiles_strictly_ordered`).

A directory can be named by several paths too. What is found below it is the same for all of them as
long as the walk is: the user's own ignore rules see a path as it is written, and a path that is
written at too great a length cannot be followed. So for lists that name the same directories by
other paths it is assumed of the walk that it finds the same (`Search.FindsAlike`).
-/

namespace StagingAudit

variable {p q : Path} {paths paths' : List Path}

/-! ## Paths in order -/

theorem pathLE_iff : pathLE p q ↔ ¬q.Before p := by
  rw [pathLE, bne_iff_ne, ne_eq, Path.order_eq_gt_iff]

/-- No sorted path comes before an earlier one. -/
theorem pairwise_mergeSort_pathLE (paths : List Path) :
    (paths.mergeSort pathLE).Pairwise fun p q => ¬q.Before p := by
  refine (List.pairwise_mergeSort ?_ ?_ paths).imp pathLE_iff.1
  · intro p q r hpq hqr
    rw [pathLE_iff] at hpq hqr ⊢
    exact fun hrp => hqr (hrp.of_not_before hpq)
  · intro p q
    rw [Bool.or_eq_true, pathLE_iff, pathLE_iff]
    exact not_and_or.1 fun h => h.1.asymm h.2

/-! ## Paths once

A path is dropped when it has the components of the one before it, so repetitions are dropped only
where they are neighbours. In a sorted list they are. Which spelling of a path is kept depends on
the order in which the files were found, and nothing else does: a strictly increasing list is
determined by what is in it. -/

/-- Dropping repetitions drops no components. -/
theorem mem_components_distinctFrom (ks : List Component) (p : Path) (paths : List Path) :
    ks ∈ (distinctFrom p paths).map Path.components ↔ ks ∈ (p :: paths).map Path.components := by
  induction paths generalizing p with
  | nil => rfl
  | cons q paths ih =>
    rw [distinctFrom]
    split
    · next hsame =>
      rw [Path.same_iff] at hsame
      simp [ih, hsame]
    · rw [List.map_cons, List.mem_cons, ih, ← List.mem_cons, ← List.map_cons]

/-- In order, what is left of paths without their repetitions is strictly increasing. -/
theorem pairwise_distinctFrom (h : (p :: paths).Pairwise fun p q => ¬q.Before p) :
    (distinctFrom p paths).Pairwise Path.Before := by
  induction paths generalizing p with
  | nil => exact List.pairwise_singleton _ _
  | cons q paths ih =>
    obtain ⟨hp, hpaths⟩ := List.pairwise_cons.1 h
    obtain ⟨hq, hlater⟩ := List.pairwise_cons.1 hpaths
    rw [distinctFrom]
    split
    · exact ih (List.pairwise_cons.2 ⟨fun r hr => hp r (.tail _ hr), hlater⟩)
    · next hsame =>
      rw [Path.same_iff] at hsame
      have hpq : p.Before q := by
        rcases p.before_or_same q with hbefore | heq | hafter
        · exact hbefore
        · exact absurd heq hsame
        · exact absurd hafter (hp q (.head _))
      refine List.pairwise_cons.2 ⟨fun r hr => ?_, ih hpaths⟩
      rcases List.mem_cons.1 (mem_of_mem_distinctFrom hr) with rfl | hr
      · exact hpq
      · exact hpq.of_not_before (hq r hr)

/-- **Paths that are listed in order and once are strictly increasing.** -/
theorem pairwise_sortPaths (paths : List Path) : (sortPaths paths).Pairwise Path.Before := by
  have hsorted := pairwise_mergeSort_pathLE paths
  rw [sortPaths]
  split
  · exact .nil
  · next heq =>
    rw [heq] at hsorted
    exact pairwise_distinctFrom hsorted

theorem mem_components_sortPaths (ks : List Component) (paths : List Path) :
    ks ∈ (sortPaths paths).map Path.components ↔ ks ∈ paths.map Path.components := by
  have hperm := (List.mergeSort_perm paths pathLE).map Path.components
  rw [← hperm.mem_iff, sortPaths]
  split
  · next heq => rw [heq]
  · next heq => rw [mem_components_distinctFrom, heq]

/-- **The listed components depend only on which components there are.** -/
theorem map_components_sortPaths
    (h : ∀ ks, ks ∈ paths.map Path.components ↔ ks ∈ paths'.map Path.components) :
    (sortPaths paths).map Path.components = (sortPaths paths').map Path.components := by
  have hsorted : ∀ paths,
      ((sortPaths paths).map Path.components).Pairwise (List.Lex Component.Before) :=
    fun paths => List.pairwise_map.2 (pairwise_sortPaths paths)
  -- the order is strict, so it is enough to compare the members
  refine (hsorted paths).eq_of_mem_iff (hsorted paths') fun ks => ?_
  rw [mem_components_sortPaths, mem_components_sortPaths, h]

/-! ## Default files -/

namespace Search

variable {s : Search} {root : Path} {dirs dirs' files : List Path}

/-- The models below a directory of a project, none if there is no such directory. -/
def modelsAt (s : Search) (root dir : Path) : Except SearchFault (List Path) :=
  if s.tree.isDirectory s.cwd (root.join dir) then s.modelsUnder (root.join dir) else .ok []

theorem defaultFiles_eq_ok_iff :
    s.defaultFiles root dirs = .ok files ↔
      ∃ found, dirs.mapM (s.modelsAt root) = .ok found ∧ sortPaths found.flatten = files :=
  map_eq_ok_iff

/-- Two paths that name one directory of a project, and below it the same is found: they have the
same components, and when the search below the first succeeds, so does the one below the second,
with files of the same components. -/
structure FindsAlike (s : Search) (root dir dir' : Path) : Prop where
  /-- the paths have the same components -/
  same : dir.same dir'
  /-- so have the files that are found -/
  found : ∀ models, s.modelsAt root dir = .ok models →
    ∃ models', s.modelsAt root dir' = .ok models' ∧
      ∀ ks, ks ∈ models'.map Path.components ↔ ks ∈ models.map Path.components

/-- One path finds what it finds. -/
theorem FindsAlike.refl (s : Search) (root dir : Path) : s.FindsAlike root dir dir :=
  ⟨Path.same_iff.2 rfl, fun models hmodels => ⟨models, hmodels, fun _ => Iff.rfl⟩⟩

/-- Components are found when they are found below one of the directories. -/
theorem mem_components_iff_of_mapM {found : List (List Path)}
    (h : dirs.mapM (s.modelsAt root) = .ok found) (ks : List Component) :
    ks ∈ found.flatten.map Path.components ↔
      ∃ dir ∈ dirs, ∃ models, s.modelsAt root dir = .ok models ∧
        ks ∈ models.map Path.components := by
  rw [List.map_flatten, List.mem_flatten]
  simp only [List.mem_map (f := List.map Path.components), mem_iff_of_mapM h]
  constructor
  · rintro ⟨_, ⟨models, ⟨dir, hdir, hmodels⟩, rfl⟩, hks⟩
    exact ⟨dir, hdir, models, hmodels, hks⟩
  · rintro ⟨dir, hdir, models, hmodels, hks⟩
    exact ⟨_, ⟨models, ⟨dir, hdir, hmodels⟩, rfl⟩, hks⟩

/-- What is found depends only on which directories are named. -/
theorem exists_mapM_modelsAt {found : List (List Path)}
    (hto : ∀ dir ∈ dirs, ∃ dir' ∈ dirs', s.FindsAlike root dir dir')
    (hfrom : ∀ dir' ∈ dirs', ∃ dir ∈ dirs, s.FindsAlike root dir dir')
    (h : dirs.mapM (s.modelsAt root) = .ok found) :
    ∃ found', dirs'.mapM (s.modelsAt root) = .ok found' ∧
      ∀ ks, ks ∈ found'.flatten.map Path.components ↔ ks ∈ found.flatten.map Path.components := by
  have heach : ∀ dir ∈ dirs, ∃ models, s.modelsAt root dir = .ok models :=
    exists_mapM_eq_ok_iff.1 ⟨found, h⟩
  have heach' : ∀ dir' ∈ dirs', ∃ models, s.modelsAt root dir' = .ok models := by
    intro dir' hdir'
    obtain ⟨dir, hdir, halike⟩ := hfrom dir' hdir'
    obtain ⟨models, hmodels⟩ := heach dir hdir
    obtain ⟨models', hmodels', -⟩ := halike.found models hmodels
    exact ⟨models', hmodels'⟩
  obtain ⟨found', h'⟩ := exists_mapM_eq_ok_iff.2 heach'
  refine ⟨found', h', fun ks => ?_⟩
  rw [mem_components_iff_of_mapM h, mem_components_iff_of_mapM h']
  constructor
  · rintro ⟨dir', hdir', models', hmodels', hks⟩
    obtain ⟨dir, hdir, halike⟩ := hfrom dir' hdir'
    obtain ⟨models, hmodels⟩ := heach dir hdir
    obtain ⟨_, hsearch, hsame⟩ := halike.found models hmodels
    cases hmodels'.symm.trans hsearch
    exact ⟨dir, hdir, models, hmodels, (hsame ks).1 hks⟩
  · rintro ⟨dir, hdir, models, hmodels, hks⟩
    obtain ⟨dir', hdir', halike⟩ := hto dir hdir
    obtain ⟨models', hmodels', hsame⟩ := halike.found models hmodels
    exact ⟨dir', hdir', models', hmodels', (hsame ks).2 hks⟩

/-- Nor does the list depend on anything else, as far as components say. -/
theorem exists_defaultFiles_eq_ok (h : s.defaultFiles root dirs = .ok files)
    (hto : ∀ dir ∈ dirs, ∃ dir' ∈ dirs', s.FindsAlike root dir dir')
    (hfrom : ∀ dir' ∈ dirs', ∃ dir ∈ dirs, s.FindsAlike root dir dir') :
    ∃ files', s.defaultFiles root dirs' = .ok files' ∧
      files'.map Path.components = files.map Path.components := by
  obtain ⟨found, hfound, rfl⟩ := defaultFiles_eq_ok_iff.1 h
  obtain ⟨found', hfound', hmem⟩ := exists_mapM_modelsAt hto hfrom hfound
  exact ⟨_, defaultFiles_eq_ok_iff.2 ⟨found', hfound', rfl⟩, map_components_sortPaths hmem⟩

end Search

/-- **The default files are in strict order, however their directories are listed.** When the search
for them succeeds, each comes before the next one by its components, so none is listed twice. And
a list of the same directories in any order and with any repetitions succeeds as well, and gives
the same files one by one, as far as their components say; the directories may be named by other
paths with the same components, if the search below finds the same then. -/
theorem defaultFiles_strictly_ordered (s : Search) (root : Path) (dirs files : List Path)
    (h : s.defaultFiles root dirs = .ok files) :
    files.Pairwise Path.Before ∧
      (∀ dirs', (∀ dir, dir ∈ dirs' ↔ dir ∈ dirs) →
        ∃ files', s.defaultFiles root dirs' = .ok files' ∧
          files'.map Path.components = files.map Path.components) ∧
      ∀ dirs', (∀ dir ∈ dirs, ∃ dir' ∈ dirs', s.FindsAlike root dir dir') →
        (∀ dir' ∈ dirs', ∃ dir ∈ dirs, s.FindsAlike root dir dir') →
          ∃ files', s.defaultFiles root dirs' = .ok files' ∧
            files'.map Path.components = files.map Path.components := by
  refine ⟨?_, fun dirs' hdirs => ?_, fun dirs' => Search.exists_defaultFiles_eq_ok h⟩
  · obtain ⟨found, -, rfl⟩ := Search.defaultFiles_eq_ok_iff.1 h
    exact pairwise_sortPaths _
  · refine Search.exists_defaultFiles_eq_ok h (fun dir hdir => ?_) fun dir hdir => ?_
    · exact ⟨dir, (hdirs dir).2 hdir, .refl s root dir⟩
    · exact ⟨dir, (hdirs dir).1 hdir, .refl s root dir⟩

/-- Models whose paths are in another order as texts, as `-` comes before `/`. -/
def dashedTree : Search where
  tree := .directory [("m".toList, .directory
    [("x-y.sql".toList, .file []), ("x".toList, .directory [("a.sql".toList, .file [])]),
      ("b.sql".toList, .file [])])]
  cwd := .ofString "/"

/-- A directory is named twice, with one below it between. In another order that one comes first,
and a path is spelled as it is there. The directory alone can be named by another path, and then all
of them are spelled with that. -/
theorem defaultFiles_strictly_ordered_overlap :
    dashedTree.defaultFiles (.ofString "/")
        [.ofString "m", .ofString "m//x/", .ofString "./m"] =
      .ok [.ofString "/m/b.sql", .ofString "/m/x/a.sql", .ofString "/m/x-y.sql"] ∧
    [Path.ofString "/m/b.sql", .ofString "/m/x/a.sql", .ofString "/m/x-y.sql"].Pairwise
      Path.Before ∧
    dashedTree.defaultFiles (.ofString "/")
        [.ofString "m//x/", .ofString "./m", .ofString "m", .ofString "m//x/"] =
      .ok [.ofString "/./m/b.sql", .ofString "/m//x/a.sql", .ofString "/./m/x-y.sql"] ∧
    [Path.ofString "/./m/b.sql", .ofString "/m//x/a.sql", .ofString "/./m/x-y.sql"].map
        Path.components =
      [Path.ofString "/m/b.sql", .ofString "/m/x/a.sql", .ofString "/m/x-y.sql"].map
        Path.components ∧
    ∃ files', dashedTree.defaultFiles (.ofString "/") [.ofString "m/."] = .ok files' ∧
      files'.map Path.components =
        [Path.ofString "/m/b.sql", .ofString "/m/x/a.sql", .ofString "/m/x-y.sql"].map
          Path.components := by
  have hfiles : dashedTree.defaultFiles (.ofString "/")
      [.ofString "m", .ofString "m//x/", .ofString "./m"] =
        .ok [.ofString "/m/b.sql", .ofString "/m/x/a.sql", .ofString "/m/x-y.sql"] := by cbv
  have hagain : dashedTree.defaultFiles (.ofString "/")
      [.ofString "m//x/", .ofString "./m", .ofString "m", .ofString "m//x/"] =
        .ok [.ofString "/./m/b.sql", .ofString "/m//x/a.sql", .ofString "/./m/x-y.sql"] := by cbv
  have halone : dashedTree.defaultFiles (.ofString "/") [.ofString "m"] =
      .ok [.ofString "/m/b.sql", .ofString "/m/x/a.sql", .ofString "/m/x-y.sql"] := by cbv
  have halike : dashedTree.FindsAlike (.ofString "/") (.ofString "m") (.ofString "m/.") := by
    refine ⟨by decide, fun models hmodels => ?_⟩
    have hhere : dashedTree.modelsAt (.ofString "/") (.ofString "m") =
        .ok [.ofString "/m/b.sql", .ofString "/m/x/a.sql", .ofString "/m/x-y.sql"] := by cbv
    have hthere : dashedTree.modelsAt (.ofString "/") (.ofString "m/.") =
        .ok [.ofString "/m/./b.sql", .ofString "/m/./x/a.sql", .ofString "/m/./x-y.sql"] := by cbv
    have hsame : [Path.ofString "/m/./b.sql", .ofString "/m/./x/a.sql",
          .ofString "/m/./x-y.sql"].map Path.components =
        [Path.ofString "/m/b.sql", .ofString "/m/x/a.sql", .ofString "/m/x-y.sql"].map
          Path.components := by decide
    cases hhere.symm.trans hmodels
    exact ⟨_, hthere, fun ks => by rw [hsame]⟩
  obtain ⟨hordered, hlisted, -⟩ := defaultFiles_strictly_ordered _ _ _ _ hfiles
  obtain ⟨files', hfiles', hsame⟩ := hlisted
    [.ofString "m//x/", .ofString "./m", .ofString "m", .ofString "m//x/"] fun dir => by grind
  cases hagain.symm.trans hfiles'
  obtain ⟨-, -, hspelled⟩ := defaultFiles_strictly_ordered _ _ _ _ halone
  exact ⟨hfiles, hordered, hagain, hsame, hspelled [.ofString "m/."]
    (List.forall_mem_singleton.2 ⟨_, .head _, halike⟩)
    (List.forall_mem_singleton.2 ⟨_, .head _, halike⟩)⟩

end StagingAudit

import Mathlib.Data.List.Basic
import StagingAudit.Discovery
import StagingAudit.Proofs.Path.Joining

/-!
# What discovery finds

A *model file* is a file that is there and has the extension of models. What is found below a
directory is a model file; a file that is named on the command line is taken with any extension, and
what git lists is taken whether it is a file or a directory. So **the default files are always model
files, and the others are exactly when nothing else is named or listed**
(`discovered_isModelFile_iff`).
-/

namespace StagingAudit

/-! ## Traversals -/

/-- What comes of a list of actions is what comes of each of them. -/
theorem mem_iff_of_mapM {α β ε : Type} {f : α → Except ε β} {xs : List α} {ys : List β}
    (h : xs.mapM f = .ok ys) (y : β) : y ∈ ys ↔ ∃ x ∈ xs, f x = .ok y := by
  induction xs generalizing ys with
  | nil =>
    cases h
    simp
  | cons x xs ih =>
    rw [List.mapM_cons] at h
    cases hx : f x with
    | error e =>
      rw [hx] at h
      cases h
    | ok first =>
      cases hrest : xs.mapM f with
      | error e =>
        rw [hx, hrest] at h
        cases h
      | ok rest =>
        rw [hx, hrest] at h
        cases h
        simp [ih hrest, hx, eq_comm]

/-- A list of actions succeeds when each of them does. -/
theorem exists_mapM_eq_ok_iff {α β ε : Type} {f : α → Except ε β} {xs : List α} :
    (∃ ys, xs.mapM f = .ok ys) ↔ ∀ x ∈ xs, ∃ y, f x = .ok y := by
  induction xs with
  | nil => exact iff_of_true ⟨[], rfl⟩ nofun
  | cons x xs ih =>
    rw [List.mapM_cons, List.forall_mem_cons, ← ih]
    cases hx : f x with
    | error e => exact iff_of_false nofun (by simp)
    | ok y =>
      cases hrest : xs.mapM f with
      | error e => exact iff_of_false nofun (by simp)
      | ok ys => exact iff_of_true ⟨y :: ys, rfl⟩ ⟨⟨y, rfl⟩, ys, rfl⟩

/-- What is done to the result of an action that succeeds. -/
theorem map_eq_ok_iff {α β ε : Type} {x : Except ε α} {g : α → β} {y : β} :
    x.map g = .ok y ↔ ∃ a, x = .ok a ∧ g a = y := by
  cases x <;> simp [Except.map]

/-! ## Order -/

theorem mem_of_mem_distinctFrom {p q : Path} {paths : List Path} (h : q ∈ distinctFrom p paths) :
    q ∈ p :: paths := by
  induction paths generalizing p with
  | nil => exact h
  | cons next paths ih =>
    rw [distinctFrom] at h
    split at h
    · exact List.mem_cons.2 ((List.mem_cons.1 (ih h)).imp_right (.tail _))
    · rcases List.mem_cons.1 h with rfl | h
      · exact .head _
      · exact .tail _ (ih h)

/-- Listing paths in order and once makes up no path. -/
theorem mem_of_mem_sortPaths {q : Path} {paths : List Path} (h : q ∈ sortPaths paths) :
    q ∈ paths := by
  rw [sortPaths] at h
  split at h
  · cases h
  · next hsorted =>
    rw [← (List.mergeSort_perm paths pathLE).mem_iff, hsorted]
    exact mem_of_mem_distinctFrom h

/-! ## Model files -/

/-- A path leads to a model. -/
structure Search.IsModelFile (s : Search) (p : Path) : Prop where
  /-- a file is there -/
  isFile : s.tree.isFile s.cwd p
  /-- its extension is that of models -/
  hasExtension : hasModelExtension p

/-- What is there is a file, unless it is a directory. -/
theorem FileTree.isFile_iff {t : FileTree} {cwd p : Path} :
    t.isFile cwd p ↔ t.exists? cwd p ∧ t.isDirectory cwd p = false := by
  rw [FileTree.exists?, FileTree.isFile, FileTree.isDirectory]
  rcases t.look cwd p with fault | ⟨bytes⟩ | ⟨children⟩ <;> simp

theorem FileTree.exists?_of_isDirectory {t : FileTree} {cwd p : Path} (h : t.isDirectory cwd p) :
    t.exists? cwd p := by
  rw [FileTree.isDirectory] at h
  rw [FileTree.exists?]
  split at h
  · next hlook => rw [hlook]
  · cases h

theorem hasModelExtension_join (base : Path) {p : Path} (h : hasModelExtension p) :
    hasModelExtension (base.join p) := by
  rw [hasModelExtension, beq_iff_eq] at h ⊢
  exact Path.extension?_join base h

namespace Search

variable {s : Search} {root dir p : Path} {dirs paths files : List Path}

theorem isModelFile_of_mem_modelsUnder (h : s.modelsUnder dir = .ok files) (hp : p ∈ files) :
    s.IsModelFile p := by
  rw [modelsUnder] at h
  split at h
  · dsimp only at h
    split at h
    · cases h
    · obtain ⟨found, -, rfl⟩ := map_eq_ok_iff.1 h
      rw [(List.mergeSort_perm ..).mem_iff, List.mem_filter, Bool.and_eq_true] at hp
      exact ⟨hp.2.2, hp.2.1⟩
  · cases h
  · cases h

/-- Below the directories of a project there are model files only. -/
theorem isModelFile_of_mem_defaultFiles (h : s.defaultFiles root dirs = .ok files)
    (hp : p ∈ files) : s.IsModelFile p := by
  obtain ⟨found, hfound, rfl⟩ := map_eq_ok_iff.1 h
  obtain ⟨models, hmodels, hp⟩ := List.mem_flatten.1 (mem_of_mem_sortPaths hp)
  obtain ⟨dir, -, hdir⟩ := (mem_iff_of_mapM hfound models).1 hmodels
  split at hdir
  · exact isModelFile_of_mem_modelsUnder hdir hp
  · cases hdir
    cases hp

/-- What a path of the command line stands for: model files below it, or itself. -/
theorem isModelFile_or_eq_of_explicitPath? {q : Path} {found : Option (List Path)}
    (h : s.explicitPath? root q = .ok found) (hp : p ∈ found.getD []) :
    s.IsModelFile p ∨ p = root.join q ∧ s.tree.isFile s.cwd p := by
  rw [explicitPath?] at h
  split at h
  · obtain ⟨models, hmodels, rfl⟩ := map_eq_ok_iff.1 h
    exact .inl (isModelFile_of_mem_modelsUnder hmodels hp)
  · split at h
    · next hfile =>
      cases h
      obtain rfl := List.mem_singleton.1 hp
      exact .inr ⟨rfl, hfile⟩
    · cases h
      cases hp

theorem explicitPath?_of_isFile {q : Path} (h : s.tree.isFile s.cwd (root.join q)) :
    s.explicitPath? root q = .ok (some [root.join q]) := by
  rw [explicitPath?, (FileTree.isFile_iff.1 h).2, h]
  rfl

/-- A file that is named on the command line is taken as it is. -/
theorem isModelFile_explicitFiles_iff (h : s.explicitFiles root paths = .ok files) :
    (∀ p ∈ files, s.IsModelFile p) ↔
      ∀ q ∈ paths, s.tree.isFile s.cwd (root.join q) → hasModelExtension (root.join q) := by
  obtain ⟨found, hfound, rfl⟩ := map_eq_ok_iff.1 h
  constructor
  · intro hmodels q hq hfile
    have hmem := (mem_iff_of_mapM hfound _).2 ⟨q, hq, explicitPath?_of_isFile hfile⟩
    exact (hmodels _ (List.mem_flatMap.2 ⟨_, hmem, .head _⟩)).hasExtension
  · intro hnamed p hp
    obtain ⟨one, hone, hp⟩ := List.mem_flatMap.1 hp
    obtain ⟨q, hq, hone⟩ := (mem_iff_of_mapM hfound one).1 hone
    rcases isModelFile_or_eq_of_explicitPath? hone hp with hmodel | ⟨rfl, hfile⟩
    · exact hmodel
    · exact ⟨hfile, hnamed q hq hfile⟩

end Search

/-! ## What git lists -/

theorem mem_listedModels_iff {t : FileTree} {cwd root p : Path} {output : List UInt8} :
    p ∈ listedModels t cwd root output ↔
      ∃ q ∈ listedPaths output, hasModelExtension q ∧ p = root.join q ∧ t.exists? cwd p := by
  simp only [listedModels, List.mem_filter, List.mem_map]
  constructor
  · rintro ⟨⟨q, ⟨hq, hextension⟩, rfl⟩, hexists⟩
    exact ⟨q, hq, hextension, rfl, hexists⟩
  · rintro ⟨q, hq, hextension, rfl, hexists⟩
    exact ⟨⟨q, ⟨hq, hextension⟩, rfl⟩, hexists⟩

theorem listedModels_eq_nil_iff {t : FileTree} {cwd root : Path} {output : List UInt8} :
    listedModels t cwd root output = [] ↔
      ∀ q ∈ listedPaths output, hasModelExtension q → t.exists? cwd (root.join q) = false := by
  rw [List.eq_nil_iff_forall_not_mem]
  constructor
  · intro hnone q hq hextension
    rw [← Bool.not_eq_true]
    exact fun hexists => hnone _ (mem_listedModels_iff.2 ⟨q, hq, hextension, rfl, hexists⟩)
  · intro hmissing p hp
    obtain ⟨q, hq, hextension, rfl, hexists⟩ := mem_listedModels_iff.1 hp
    rw [hmissing q hq hextension] at hexists
    cases hexists

/-- What git lists is taken, whether it is a file or a directory. -/
theorem isModelFile_listedModels_iff {s : Search} {root : Path} {output : List UInt8} :
    (∀ p ∈ listedModels s.tree s.cwd root output, s.IsModelFile p) ↔
      ∀ q ∈ listedPaths output, hasModelExtension q →
        s.tree.isDirectory s.cwd (root.join q) = false := by
  constructor
  · intro hmodels q hq hextension
    rw [← Bool.not_eq_true]
    intro hdirectory
    have hmodel := hmodels _ (mem_listedModels_iff.2
      ⟨q, hq, hextension, rfl, FileTree.exists?_of_isDirectory hdirectory⟩)
    rw [(FileTree.isFile_iff.1 hmodel.isFile).2] at hdirectory
    cases hdirectory
  · intro hlisted p hp
    obtain ⟨q, hq, hextension, rfl, hexists⟩ := mem_listedModels_iff.1 hp
    exact ⟨FileTree.isFile_iff.2 ⟨hexists, hlisted q hq hextension⟩,
      hasModelExtension_join root hextension⟩

/-! ## The three sources -/

/-- **When discovery finds model files only.** The default files are model files. The files that
the command line stands for are model files exactly when every path on it that leads to a file has
the extension of models. And what git has changed are model files exactly when no path that it
lists with that extension leads to a directory. -/
theorem discovered_isModelFile_iff (s : Search) (root : Path) (dirs paths : List Path)
    (ask : String → Option GitAnswer) :
    (∀ files, s.defaultFiles root dirs = .ok files → ∀ p ∈ files, s.IsModelFile p) ∧
      (∀ files, s.explicitFiles root paths = .ok files →
        ((∀ p ∈ files, s.IsModelFile p) ↔
          ∀ q ∈ paths, s.tree.isFile s.cwd (root.join q) → hasModelExtension (root.join q))) ∧
      ∀ listing, (Changes.find s.tree s.cwd root dirs ask).listing = some listing →
        ∃ files, (Changes.find s.tree s.cwd root dirs ask).files s.tree s.cwd root = some files ∧
          ((∀ p ∈ files, s.IsModelFile p) ↔
            ∀ q ∈ listedPaths listing, hasModelExtension q →
              s.tree.isDirectory s.cwd (root.join q) = false) := by
  refine ⟨?_, ?_, ?_⟩
  · intro files hfiles p hp
    exact Search.isModelFile_of_mem_defaultFiles hfiles hp
  · intro files hfiles
    exact Search.isModelFile_explicitFiles_iff hfiles
  · intro listing hlisting
    refine ⟨listedModels s.tree s.cwd root listing, ?_, isModelFile_listedModels_iff⟩
    rw [Changes.files, hlisting, Option.map_some]

/-- A model, a file of another kind, and a directory with a name like that of a model. -/
def mixedTree : Search where
  tree := .directory [("m".toList, .directory
    [("a.sql".toList, .file []), ("notes.txt".toList, .file []),
      ("old.sql".toList, .directory [])])]
  cwd := .ofString "/"

/-- Git with the same list of changes for every base revision. -/
def listingGit (changes : String) : String → Option GitAnswer :=
  fun _ => some ⟨0, encode changes.toList⟩

/-- Each source finds the model, and nothing else if nothing else is named or listed. -/
theorem discovered_isModelFile_mixedTree :
    ∃ found named changed,
      mixedTree.defaultFiles (.ofString "/") [.ofString "m"] = .ok found ∧
      mixedTree.explicitFiles (.ofString "/") [.ofString "m/a.sql"] = .ok named ∧
      (Changes.find mixedTree.tree mixedTree.cwd (.ofString "/") [.ofString "m"]
        (listingGit "m/a.sql\nm/notes.txt\n")).files mixedTree.tree mixedTree.cwd (.ofString "/") =
          some changed ∧
      .ofString "/m/a.sql" ∈ found ∧ .ofString "/m/a.sql" ∈ named ∧ .ofString "/m/a.sql" ∈ changed ∧
      ∀ p ∈ found ++ named ++ changed, mixedTree.IsModelFile p := by
  obtain ⟨hfound, hnamed, hchanged⟩ := discovered_isModelFile_iff mixedTree (.ofString "/")
    [.ofString "m"] [.ofString "m/a.sql"] (listingGit "m/a.sql\nm/notes.txt\n")
  have hdefault : mixedTree.defaultFiles (.ofString "/") [.ofString "m"] =
      .ok [.ofString "/m/a.sql"] := by decide +kernel
  have hexplicit : mixedTree.explicitFiles (.ofString "/") [.ofString "m/a.sql"] =
      .ok [.ofString "/m/a.sql"] := by decide +kernel
  have hlisting : (Changes.find mixedTree.tree mixedTree.cwd (.ofString "/") [.ofString "m"]
      (listingGit "m/a.sql\nm/notes.txt\n")).listing =
        some (encode "m/a.sql\nm/notes.txt\n".toList) := by decide +kernel
  obtain ⟨changed, hfiles, hiff⟩ := hchanged _ hlisting
  obtain rfl : [Path.ofString "/m/a.sql"] = changed :=
    Option.some.inj (Eq.trans (by decide +kernel) hfiles)
  refine ⟨_, _, _, hdefault, hexplicit, hfiles, .head _, .head _, .head _, ?_⟩
  intro p hp
  rw [List.mem_append, List.mem_append] at hp
  rcases hp with (hp | hp) | hp
  · exact hfound _ hdefault p hp
  · exact (hnamed _ hexplicit).2 (by decide +kernel) p hp
  · exact hiff.2 (by decide +kernel) p hp

/-- A file of another kind is found if it is named, and a directory if git lists it. -/
theorem discovered_not_isModelFile :
    mixedTree.explicitFiles (.ofString "/") [.ofString "m/notes.txt"] =
        .ok [.ofString "/m/notes.txt"] ∧
      ¬mixedTree.IsModelFile (.ofString "/m/notes.txt") ∧
      (Changes.find mixedTree.tree mixedTree.cwd (.ofString "/") [.ofString "m"]
        (listingGit "m/old.sql\n")).files mixedTree.tree mixedTree.cwd (.ofString "/") =
          some [.ofString "/m/old.sql"] ∧
      ¬mixedTree.IsModelFile (.ofString "/m/old.sql") := by
  refine ⟨by decide +kernel, fun h => ?_, by decide +kernel, fun h => ?_⟩
  · exact absurd h.hasExtension (by decide +kernel)
  · exact absurd h.isFile (by decide +kernel)

end StagingAudit

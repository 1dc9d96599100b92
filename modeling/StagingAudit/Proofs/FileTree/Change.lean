import StagingAudit.Proofs.FileTree.Resolution

/-!
# Changed files

Files come and go while the directories stay. Whether a path can be followed into a directory is for
the directories alone to say (`IsTrail.exists_follow_iff`), so **whether there is a file of some
name in a directory depends on the directories and on one place** (`isFile_join_congr`): the place
that the path of the directory spells out, with the name behind it.

Two trees are `ChangedIn` some directories when they have the same ones and differ in files that lie
directly in these. Adding a file to a directory is such a change (`changedIn_addFile`).
-/

namespace StagingAudit

namespace FileTree

/-- The contents of the file at a place. -/
def fileAt? (t : FileTree) (place : Place) : Option (List UInt8) :=
  match t.get? place with
  | some (.file bytes) => some bytes
  | _ => none

/-- Whether a directory is at a place. -/
def isDirectoryAt (t : FileTree) (place : Place) : Bool :=
  match t.get? place with
  | some (.directory _) => true
  | _ => false

/-- Two trees have the same directories. -/
def SameDirectories (t t' : FileTree) : Prop :=
  ∀ place, t.isDirectoryAt place = t'.isDirectoryAt place

/-- Files have been added, removed or changed, all of them directly in some of the directories. -/
structure ChangedIn (changed : Place → Prop) (t t' : FileTree) : Prop where
  /-- the directories are the same -/
  directories : t.SameDirectories t'
  /-- what differs is in one of those directories -/
  files : ∀ file, t.fileAt? file ≠ t'.fileAt? file →
    ∃ dir name, file = dir ++ [name] ∧ changed dir

variable {t t' : FileTree} {cwd p base : Path} {trail trail' : Trail} {pieces : List (List Char)}
  {place dir : Place} {name piece : List Char}

/-! ## Places -/

theorem get?_append (t : FileTree) (place more : Place) :
    t.get? (place ++ more) = (t.get? place).bind (·.get? more) := by
  induction place generalizing t with
  | nil => rfl
  | cons name place ih =>
    rw [List.cons_append, get?, get?]
    cases t.children.lookup name with
    | none => rfl
    | some sub => exact ih sub

theorem get?_concat (t : FileTree) (place : Place) (name : List Char) :
    t.get? (place ++ [name]) = (t.get? place).bind (·.children.lookup name) := by
  rw [get?_append]
  congr 1
  funext sub
  rw [get?]
  cases sub.children.lookup name <;> rfl

theorem isDirectoryAt_iff :
    t.isDirectoryAt place ↔ ∃ children, t.get? place = some (.directory children) := by
  rw [isDirectoryAt]
  split
  · next children h => simp [h]
  · next h => simpa using h

theorem fileAt?_eq_some_iff {bytes : List UInt8} :
    t.fileAt? place = some bytes ↔ t.get? place = some (.file bytes) := by
  rw [fileAt?]
  split
  · next h => simp [h]
  · next h => simpa using h bytes

/-- The place that the components of a path spell out. -/
def spelled (p : Path) : Place := p.components.foldl stepFrom []

/-- Without `..` a path spells out a place below that of a path with its first components. -/
theorem isPrefix_spelled {q : Path} (h : p.components <+: q.components)
    (hparent : .parent ∉ q.components) : spelled p <+: spelled q := by
  obtain ⟨rest, hrest⟩ := h
  have hclimb : (Way.ofSteps rest).climb = 0 :=
    Way.climb_ofSteps fun hmem => hparent (hrest ▸ List.mem_append_right _ hmem)
  rw [spelled, spelled, ← hrest, List.foldl_append, Way.foldl_stepFrom rest,
    Way.isPrefix_goFrom_iff, hclimb, List.rtake_zero]
  exact List.nil_prefix

/-! ## Trails -/

/-- A trail that is one of the tree: each name leads to the tree that is noted with it. -/
inductive IsTrail (t : FileTree) : Trail → Prop where
  /-- at the root -/
  | nil : IsTrail t []
  /-- one name further -/
  | cons {trail : Trail} {name : List Char} {sub : FileTree} (before : IsTrail t trail)
      (found : (t.atTrail trail).children.lookup name = some sub) : IsTrail t ((name, sub) :: trail)

theorem IsTrail.tail (h : IsTrail t trail) : IsTrail t trail.tail := by
  cases h with
  | nil => exact .nil
  | cons before found => exact before

/-- At the end of a trail is what is at its place. -/
theorem IsTrail.get?_placeOf (h : IsTrail t trail) :
    t.get? (placeOf trail) = some (t.atTrail trail) := by
  induction h with
  | nil => rfl
  | cons before found ih =>
    rw [placeOf_cons, get?_concat, ih]
    exact found

theorem IsTrail.follows (h : IsTrail t trail) (hstep : t.Follows trail piece trail') :
    IsTrail t trail' := by
  cases hstep with
  | idle => exact h
  | back => exact h.tail
  | down here _ _ hsub => exact .cons h (by rwa [here])

theorem IsTrail.follow (h : IsTrail t trail) (hfollow : t.follow trail pieces = .ok trail') :
    IsTrail t trail' := by
  induction pieces generalizing trail with
  | nil =>
    rw [FileTree.follow] at hfollow
    cases hfollow
    exact h
  | cons piece pieces ih =>
    obtain ⟨middle, hmiddle, hrest⟩ := follow_cons_eq_ok_iff.1 hfollow
    exact ih (h.follows hmiddle) hrest

theorem IsTrail.isDirectoryAt_iff (h : IsTrail t trail) :
    t.isDirectoryAt (placeOf trail) ↔ ∃ children, t.atTrail trail = .directory children := by
  rw [FileTree.isDirectoryAt_iff, h.get?_placeOf]
  simp

/-! ## Directories all along

At each piece of a path the tree is asked whether one is in a directory, and at a name also whether
there is something of that name. Along a path that ends in a directory the first question is enough,
as long as it is asked at the last place as well: where a directory is, something is. `Walks` asks
nothing else, so a path that leads into a directory of one tree leads into one of every tree with
the same directories. -/

/-- Pieces can be followed from a place into a directory: there are directories all along, and no
name is too long. -/
def Walks (isDirectory : Place → Bool) : Place → List (List Char) → Prop
  | place, [] => isDirectory place
  | place, piece :: pieces =>
    isDirectory place ∧
      match Path.component? piece with
      | some (.name n) => byteLength n ≤ maxNameBytes ∧ Walks isDirectory (place ++ [n]) pieces
      | some .parent => Walks isDirectory place.dropLast pieces
      | _ => Walks isDirectory place pieces

theorem Walks.isDirectory {isDirectory : Place → Bool} (h : Walks isDirectory place pieces) :
    isDirectory place := by
  cases pieces with
  | nil => exact h
  | cons piece pieces => exact h.1

/-- One step of a walk is to follow a piece. -/
theorem IsTrail.exists_follows_of_walks (h : IsTrail t trail)
    (hwalks : Walks t.isDirectoryAt (placeOf trail) (piece :: pieces)) :
    ∃ middle, t.Follows trail piece middle ∧ Walks t.isDirectoryAt (placeOf middle) pieces := by
  obtain ⟨hdirectory, hrest⟩ := hwalks
  obtain ⟨children, here⟩ := h.isDirectoryAt_iff.1 hdirectory
  by_cases hidle : Path.isIdle piece
  · have hpiece := Path.component?_eq_none_iff.2 hidle
    rw [hpiece] at hrest
    exact ⟨trail, .idle here hpiece, hrest⟩
  by_cases hparent : piece = ['.', '.']
  · have hpiece := Path.component?_eq_parent_iff.2 hparent
    rw [hpiece, ← placeOf_tail] at hrest
    exact ⟨trail.tail, .back here hpiece, hrest⟩
  · have hpiece := Path.component?_eq_name_iff.2 ⟨hidle, hparent, rfl⟩
    rw [hpiece] at hrest
    obtain ⟨hshort, hrest⟩ := hrest
    -- the walk goes on from a directory, so the name stands for something
    obtain ⟨_, hsub⟩ := FileTree.isDirectoryAt_iff.1 hrest.isDirectory
    rw [get?_concat, h.get?_placeOf, here, Option.bind_some] at hsub
    exact ⟨_, .down here hpiece hshort hsub, by rwa [placeOf_cons]⟩

/-- **Whether pieces lead into a directory depends on the directories alone.** -/
theorem IsTrail.exists_follow_iff (h : IsTrail t trail) :
    (∃ trail', t.follow trail pieces = .ok trail' ∧ t.isDirectoryAt (placeOf trail')) ↔
      Walks t.isDirectoryAt (placeOf trail) pieces := by
  induction pieces generalizing trail with
  | nil => simp [FileTree.follow, Walks]
  | cons piece pieces ih =>
    constructor
    · rintro ⟨trail', hfollow, hdirectory⟩
      obtain ⟨middle, hmiddle, hrest⟩ := follow_cons_eq_ok_iff.1 hfollow
      have hwalks := (ih (h.follows hmiddle)).1 ⟨trail', hrest, hdirectory⟩
      rw [Walks]
      cases hmiddle with
      | idle here hpiece =>
        rw [hpiece]
        exact ⟨h.isDirectoryAt_iff.2 ⟨_, here⟩, hwalks⟩
      | back here hpiece =>
        rw [hpiece]
        rw [placeOf_tail] at hwalks
        exact ⟨h.isDirectoryAt_iff.2 ⟨_, here⟩, hwalks⟩
      | down here hpiece hshort hsub =>
        rw [hpiece]
        rw [placeOf_cons] at hwalks
        exact ⟨h.isDirectoryAt_iff.2 ⟨_, here⟩, hshort, hwalks⟩
    · intro hwalks
      obtain ⟨middle, hmiddle, hrest⟩ := h.exists_follows_of_walks hwalks
      obtain ⟨trail', hfollow, hdirectory⟩ := (ih (h.follows hmiddle)).2 hrest
      exact ⟨trail', follow_cons_eq_ok_iff.2 ⟨middle, hmiddle, hfollow⟩, hdirectory⟩

/-! ## Files by their paths

The path of a file in a directory is the path of the directory with a name behind it. Its pieces are
followed into the directory, which is for the directories to say, and then by the name, which is one
lookup at one place. -/

/-- One name and nothing else: no separator is in it, and it is not `.` or `..`. -/
structure IsName (p : Path) : Prop where
  /-- there is one piece -/
  separator : '/' ∉ p.chars
  /-- it is a name -/
  component : Path.component? p.chars = some (.name p.chars)

theorem IsName.splitAt (h : IsName p) : splitAt '/' p.chars = [p.chars] :=
  splitAt_of_not_mem h.separator

theorem IsName.isAbsolute (h : IsName p) : p.isAbsolute = false := by
  rw [Bool.eq_false_iff]
  intro habsolute
  obtain ⟨cs, hcs⟩ := Path.exists_of_isAbsolute habsolute
  exact h.separator (hcs ▸ .head _)

theorem isFile_iff_exists_trailOf : t.isFile cwd p ↔
    ∃ trail, t.trailOf cwd p = .ok trail ∧ (t.fileAt? (placeOf trail)).isSome := by
  rw [isFile, look]
  cases htrail : t.trailOf cwd p with
  | error fault => simp [Except.map]
  | ok trail =>
    have hget := (IsTrail.nil.follow (trailOf_eq_ok_iff.1 htrail).2.2.2).get?_placeOf
    simp only [Except.map, Except.ok.injEq, exists_eq_left', fileAt?, hget]
    cases t.atTrail trail <;> simp

/-- A name leads from a directory to a file if there is one of that name in it. -/
theorem IsTrail.exists_follow_name_iff (h : IsTrail t trail) (hname : IsName p) :
    (∃ trail', t.follow trail [p.chars] = .ok trail' ∧ (t.fileAt? (placeOf trail')).isSome) ↔
      t.isDirectoryAt (placeOf trail) ∧ byteLength p.chars ≤ maxNameBytes ∧
        (t.fileAt? (placeOf trail ++ [p.chars])).isSome := by
  constructor
  · rintro ⟨trail', hfollow, hfile⟩
    obtain ⟨middle, hmiddle, hrest⟩ := follow_cons_eq_ok_iff.1 hfollow
    obtain rfl : middle = trail' := Except.ok.inj hrest
    cases hmiddle with
    | idle here hpiece => cases hpiece.symm.trans hname.component
    | back here hpiece => cases hpiece.symm.trans hname.component
    | down here _ hshort hsub =>
      rw [placeOf_cons] at hfile
      exact ⟨h.isDirectoryAt_iff.2 ⟨_, here⟩, hshort, hfile⟩
  · rintro ⟨hdirectory, hshort, hfile⟩
    obtain ⟨children, here⟩ := h.isDirectoryAt_iff.1 hdirectory
    obtain ⟨bytes, hbytes⟩ := Option.isSome_iff_exists.1 hfile
    have hsub := fileAt?_eq_some_iff.1 hbytes
    rw [get?_concat, h.get?_placeOf, here, Option.bind_some] at hsub
    refine ⟨_, follow_cons_eq_ok_iff.2 ⟨_, .down here hname.component hshort hsub, rfl⟩, ?_⟩
    rwa [placeOf_cons]

/-- Pieces lead to a file of some name if they lead into a directory and there is one in it. -/
theorem exists_follow_file_iff (lead : List (List Char)) (hp : IsName p) :
    (∃ trail, t.follow [] (lead ++ [p.chars]) = .ok trail ∧ (t.fileAt? (placeOf trail)).isSome) ↔
      Walks t.isDirectoryAt [] lead ∧ byteLength p.chars ≤ maxNameBytes ∧
        (t.fileAt? ((lead.filterMap Path.component?).foldl stepFrom [] ++ [p.chars])).isSome := by
  have hplace : ∀ {middle}, t.follow [] lead = .ok middle →
      placeOf middle = (lead.filterMap Path.component?).foldl stepFrom [] :=
    fun hmiddle => placeOf_follow hmiddle
  constructor
  · rintro ⟨trail, hfollow, hsome⟩
    obtain ⟨middle, hmiddle, hlast⟩ := follow_append_eq_ok_iff.1 hfollow
    obtain ⟨hdirectory, hbytes, hfile⟩ :=
      ((IsTrail.nil.follow hmiddle).exists_follow_name_iff hp).1 ⟨trail, hlast, hsome⟩
    exact ⟨IsTrail.nil.exists_follow_iff.1 ⟨middle, hmiddle, hdirectory⟩, hbytes,
      hplace hmiddle ▸ hfile⟩
  · rintro ⟨hwalks, hbytes, hfile⟩
    obtain ⟨middle, hmiddle, hdirectory⟩ := IsTrail.nil.exists_follow_iff.2 hwalks
    obtain ⟨trail, hlast, hsome⟩ :=
      ((IsTrail.nil.follow hmiddle).exists_follow_name_iff hp).2
        ⟨hdirectory, hbytes, (hplace hmiddle).symm ▸ hfile⟩
    exact ⟨trail, follow_append_eq_ok_iff.2 ⟨middle, hmiddle, hlast⟩, hsome⟩

/-- **Whether there is a file of some name in a directory depends on the directories and on one
place.** -/
theorem isFile_join_congr (ht : t.SameDirectories t') (hbase : base.isAbsolute) (hp : IsName p)
    (hfile : (t.fileAt? (spelled base ++ [p.chars])).isSome =
      (t'.fileAt? (spelled base ++ [p.chars])).isSome) :
    t.isFile cwd (base.join p) = t'.isFile cwd (base.join p) := by
  obtain ⟨lead, hsplit, hlead⟩ := Path.exists_splitAt_join base hp.isAbsolute
  have hplace : (lead.filterMap Path.component?).foldl stepFrom [] = spelled base := by
    rw [Path.filterMap_lead hlead, spelled, Path.components_of_isAbsolute hbase]
    rfl
  have hiff : ∀ t : FileTree, t.isFile cwd (base.join p) ↔
      '\x00' ∉ (base.join p).chars ∧ byteLength (base.join p).chars ≤ maxPathBytes ∧
        (base.join p).chars ≠ [] ∧ Walks t.isDirectoryAt [] lead ∧
          byteLength p.chars ≤ maxNameBytes ∧ (t.fileAt? (spelled base ++ [p.chars])).isSome := by
    intro t
    rw [← hplace, ← exists_follow_file_iff lead hp]
    simp only [isFile_iff_exists_trailOf, trailOf_eq_ok_iff, hsplit, hp.splitAt, and_assoc,
      Path.join_of_isAbsolute (Path.isAbsolute_join hbase), exists_and_left]
  rw [Bool.eq_iff_iff, hiff t, hiff t', hfile, funext ht]

/-- Changes elsewhere leave the files of a directory. -/
theorem ChangedIn.isFile_join {changed : Place → Prop} (h : ChangedIn changed t t')
    (hbase : base.isAbsolute) (hp : IsName p) (hdir : ¬changed (spelled base)) :
    t.isFile cwd (base.join p) = t'.isFile cwd (base.join p) := by
  refine isFile_join_congr h.directories hbase hp (congrArg Option.isSome ?_)
  by_contra hne
  obtain ⟨dir, name, hplace, hchanged⟩ := h.files _ hne
  obtain ⟨rfl, -⟩ := List.append_inj' hplace rfl
  exact hdir hchanged

/-! ## Adding a file -/

theorem lookup_setChild (n name : List Char) (sub : FileTree)
    (children : List (List Char × FileTree)) :
    (setChild name sub children).lookup n = if n = name then some sub else children.lookup n := by
  induction children with
  | nil => simp only [setChild, List.lookup_cons, List.lookup_nil]; grind
  | cons child children ih =>
    rw [setChild]
    split
    · next hchild => simp only [List.lookup_cons, hchild]; grind
    · next hchild => simp only [List.lookup_cons, ih]; grind

theorem isDirectoryAt_cons (t : FileTree) (name : List Char) (place : Place) :
    t.isDirectoryAt (name :: place) = (t.children.lookup name).any (·.isDirectoryAt place) := by
  rw [isDirectoryAt, get?]
  cases t.children.lookup name <;> rfl

theorem fileAt?_cons (t : FileTree) (name : List Char) (place : Place) :
    t.fileAt? (name :: place) = (t.children.lookup name).bind (·.fileAt? place) := by
  rw [fileAt?, get?]
  cases t.children.lookup name <;> rfl

theorem isDirectoryAt_setChild (t sub : FileTree) (name n : List Char) (place : Place) :
    (directory (setChild name sub t.children)).isDirectoryAt (n :: place) =
      if n = name then sub.isDirectoryAt place else t.isDirectoryAt (n :: place) := by
  rw [isDirectoryAt_cons, isDirectoryAt_cons, children, lookup_setChild]
  split <;> rfl

theorem fileAt?_setChild (t sub : FileTree) (name n : List Char) (place : Place) :
    (directory (setChild name sub t.children)).fileAt? (n :: place) =
      if n = name then sub.fileAt? place else t.fileAt? (n :: place) := by
  rw [fileAt?_cons, fileAt?_cons, children, lookup_setChild]
  split <;> rfl

/-- In a file there is neither a directory nor another file. -/
theorem leaf_of_isDirectoryAt_nil (h : t.isDirectoryAt [] = false) (place : Place) :
    t.isDirectoryAt place = false ∧ (place ≠ [] → t.fileAt? place = none) := by
  cases t with
  | directory children => cases h
  | file bytes =>
    cases place with
    | nil => exact ⟨rfl, fun hne => absurd rfl hne⟩
    | cons n place => simp [isDirectoryAt_cons, fileAt?_cons, children]

/-- A file that is added at the top changes nothing elsewhere. -/
theorem addFile_elsewhere_of_nil {bytes : List UInt8} (htop : t.isDirectoryAt [])
    (hfree : t.isDirectoryAt [name] = false) (place : Place) :
    (t.addFile [name] bytes).isDirectoryAt place = t.isDirectoryAt place ∧
      (place ≠ [name] → (t.addFile [name] bytes).fileAt? place = t.fileAt? place) := by
  cases place with
  | nil =>
    obtain ⟨children, hchildren⟩ := FileTree.isDirectoryAt_iff.1 htop
    obtain rfl := Option.some.inj hchildren
    exact ⟨rfl, fun _ => rfl⟩
  | cons n place =>
    rw [addFile, change, isDirectoryAt_setChild, fileAt?_setChild]
    split
    · next hn =>
      subst hn
      -- neither the file nor what was there before has anything in it
      obtain ⟨hdirectory, hfile⟩ := leaf_of_isDirectoryAt_nil (t := .file bytes) rfl place
      rw [isDirectoryAt_cons] at hfree ⊢
      rw [fileAt?_cons, change]
      cases hsub : t.children.lookup n with
      | none => simpa [hdirectory] using hfile
      | some sub =>
        rw [hsub, Option.any_some] at hfree
        obtain ⟨hdirectory', hfile'⟩ := leaf_of_isDirectoryAt_nil hfree place
        refine ⟨hdirectory.trans hdirectory'.symm, fun hne => ?_⟩
        have hplace : place ≠ [] := fun h => hne (h ▸ rfl)
        exact (hfile hplace).trans (hfile' hplace).symm
    · exact ⟨rfl, fun _ => rfl⟩

/-- A file that is added to a directory changes nothing elsewhere. -/
theorem addFile_elsewhere {bytes : List UInt8} (hdir : t.isDirectoryAt dir)
    (hfree : t.isDirectoryAt (dir ++ [name]) = false) (place : Place) :
    (t.addFile (dir ++ [name]) bytes).isDirectoryAt place = t.isDirectoryAt place ∧
      (place ≠ dir ++ [name] →
        (t.addFile (dir ++ [name]) bytes).fileAt? place = t.fileAt? place) := by
  induction dir generalizing t place with
  | nil => exact addFile_elsewhere_of_nil hdir hfree place
  | cons d dir ih =>
    rw [isDirectoryAt_cons, Option.any_eq_true] at hdir
    obtain ⟨sub, hsub, hdir⟩ := hdir
    rw [List.cons_append, isDirectoryAt_cons, hsub, Option.any_some] at hfree
    cases place with
    | nil =>
      cases t with
      | file bytes => cases hsub
      | directory children => exact ⟨rfl, fun _ => rfl⟩
    | cons n place =>
      rw [List.cons_append, addFile, change, isDirectoryAt_setChild, fileAt?_setChild, hsub]
      split
      · next hn =>
        subst hn
        obtain ⟨hdirectory, hfile⟩ := ih hdir hfree place
        rw [isDirectoryAt_cons, fileAt?_cons, hsub]
        exact ⟨hdirectory, fun hne => hfile fun h => hne (h ▸ rfl)⟩
      · exact ⟨rfl, fun _ => rfl⟩

/-- Adding a file to a directory is a change in that directory. -/
theorem changedIn_addFile {changed : Place → Prop} (dir : Place) (bytes : List UInt8)
    (hdir : t.isDirectoryAt dir) (hfree : t.isDirectoryAt (dir ++ [name]) = false)
    (hchanged : changed dir) : ChangedIn changed t (t.addFile (dir ++ [name]) bytes) where
  directories place := (addFile_elsewhere hdir hfree place).1.symm
  files file hne := by
    by_cases hfile : file = dir ++ [name]
    · exact ⟨dir, name, hfile, hchanged⟩
    · exact absurd ((addFile_elsewhere hdir hfree file).2 hfile).symm hne

end FileTree

end StagingAudit

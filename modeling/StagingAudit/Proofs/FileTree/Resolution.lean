import Mathlib.Data.List.DropRight
import StagingAudit.FileTree
import StagingAudit.Proofs.Path.Joining

/-!
# Where paths lead

A path that leads somewhere in a tree leads to **the place that its steps spell out**
(`locate_eq`): each name goes down by one, each `..` goes back up. Whether it leads anywhere is for
the tree to say, where it leads is not. What one piece of a path can do is said once (`Follows`);
the rest goes by induction over the pieces.

A `Way` is what some steps come to, wherever they are taken: a number of directories to climb, then
names to go down by. It tells whether the steps end below the place where they started
(`isPrefix_goFrom_iff`).
-/

namespace StagingAudit

/-! ## Ways

What a `..` does to a place depends on the place. What some steps do to all places can be said in
advance, though: a `..` behind a name takes the name away, wherever that was, and a `..` behind
no name climbs. What is left are directories to climb and then names, and never a name before a
climb. -/

/-- The place that a step leads to from another. -/
def stepFrom (place : Place) : Component → Place
  | .name n => place ++ [n]
  | .parent => place.dropLast
  | .root | .here => place

theorem dropLast_rdrop {α : Type} (l : List α) (n : Nat) :
    (l.rdrop n).dropLast = l.rdrop (n + 1) := by
  rw [List.rdrop, List.rdrop, List.dropLast_eq_take, List.take_take, List.length_take]
  congr 1
  omega

/-- Up a number of directories, then down by names. -/
structure Way where
  /-- how many directories it climbs -/
  climb : Nat := 0
  /-- the names that it goes down by -/
  names : Place := []
  deriving DecidableEq, Repr

namespace Way

/-- The way with one more step. A `..` takes away the last name, or climbs when none is left. -/
def step (w : Way) : Component → Way
  | .name n => { w with names := w.names ++ [n] }
  | .parent => if w.names = [] then { w with climb := w.climb + 1 } else
      { w with names := w.names.dropLast }
  | .root | .here => w

/-- The way that some steps come to. -/
def ofSteps (ks : List Component) : Way := ks.foldl step {}

/-- The place that a way leads to from another. There is nothing above the root to climb to. -/
def goFrom (w : Way) (place : Place) : Place := place.rdrop w.climb ++ w.names

variable {w : Way} {place : Place} {ks : List Component}

theorem goFrom_step (w : Way) (place : Place) (k : Component) :
    (w.step k).goFrom place = stepFrom (w.goFrom place) k := by
  cases k with
  | name n => simp [step, goFrom, stepFrom]
  | parent =>
    rw [step, stepFrom, goFrom]
    split
    · next hnames => rw [goFrom, hnames, List.append_nil, List.append_nil, dropLast_rdrop]
    · next hnames => rw [goFrom, List.dropLast_append_of_ne_nil hnames]
  | root => rfl
  | here => rfl

/-- Taking some steps is going their way. -/
theorem foldl_stepFrom (ks : List Component) (place : Place) :
    ks.foldl stepFrom place = (ofSteps ks).goFrom place := by
  have hfrom : ∀ w : Way, ks.foldl stepFrom (w.goFrom place) = (ks.foldl step w).goFrom place := by
    induction ks with
    | nil => exact fun w => rfl
    | cons k ks ih =>
      intro w
      rw [List.foldl_cons, List.foldl_cons, ← goFrom_step, ih]
  have hstart : goFrom {} place = place := by simp [goFrom]
  rw [ofSteps, ← hfrom, hstart]

/-- A way ends below the place where it starts, or there, exactly when the names that it goes down
by begin with those that it has climbed out of. -/
theorem isPrefix_goFrom_iff : place <+: w.goFrom place ↔ place.rtake w.climb <+: w.names := by
  have hsplit : place.rdrop w.climb ++ place.rtake w.climb = place := List.take_append_drop ..
  calc place <+: w.goFrom place
      ↔ place.rdrop w.climb ++ place.rtake w.climb <+: place.rdrop w.climb ++ w.names := by
        rw [hsplit, goFrom]
    _ ↔ place.rtake w.climb <+: w.names := List.prefix_append_right_inj _

/-- Without `..` there is no climbing. -/
theorem climb_ofSteps (h : .parent ∉ ks) : (ofSteps ks).climb = 0 := by
  have hfrom : ∀ w : Way, (ks.foldl step w).climb = w.climb := by
    induction ks with
    | nil => exact fun w => rfl
    | cons k ks ih =>
      intro w
      rw [List.mem_cons, not_or] at h
      rw [List.foldl_cons, ih h.2]
      cases k with
      | parent => exact absurd rfl h.1
      | _ => rfl
  exact hfrom {}

end Way

/-! ## Following paths

Following a path can go wrong at each piece, and in several ways. For what is shown here it is
enough to know what it has come to when it has not gone wrong. This is one of three things
(`Follows`), and every induction over the pieces of a path takes its cases from there. -/

namespace FileTree

/-- The names along a trail, from the root down. -/
def placeOf (trail : Trail) : Place := (trail.map (·.1)).reverse

variable {t : FileTree} {cwd p base : Path} {trail trail' : Trail} {pieces : List (List Char)}

theorem placeOf_cons (name : List Char) (sub : FileTree) (trail : Trail) :
    placeOf ((name, sub) :: trail) = placeOf trail ++ [name] := by
  simp [placeOf]

theorem placeOf_tail (trail : Trail) : placeOf trail.tail = (placeOf trail).dropLast := by
  simp [placeOf, List.dropLast_reverse]

/-- What following one piece comes to, from a trail that ends in a directory. -/
inductive Follows (t : FileTree) (trail : Trail) (piece : List Char) : Trail → Prop where
  /-- an idle piece leads nowhere else -/
  | idle {children : List (List Char × FileTree)} (here : t.atTrail trail = .directory children)
      (meaning : Path.component? piece = none) : Follows t trail piece trail
  /-- `..` leads back -/
  | back {children : List (List Char × FileTree)} (here : t.atTrail trail = .directory children)
      (meaning : Path.component? piece = some .parent) : Follows t trail piece trail.tail
  /-- a name that is not too long leads to what it stands for -/
  | down {children : List (List Char × FileTree)} {sub : FileTree}
      (here : t.atTrail trail = .directory children)
      (meaning : Path.component? piece = some (.name piece))
      (short : byteLength piece ≤ maxNameBytes) (found : children.lookup piece = some sub) :
      Follows t trail piece ((piece, sub) :: trail)

/-- Following pieces is following one after the other. -/
theorem follow_cons_eq_ok_iff {piece : List Char} :
    t.follow trail (piece :: pieces) = .ok trail' ↔
      ∃ middle, t.Follows trail piece middle ∧ t.follow middle pieces = .ok trail' := by
  rw [follow]
  constructor
  · intro h
    split at h
    · cases h
    · next children here =>
      split at h
      · next hidle => exact ⟨_, .idle here (Path.component?_eq_none_iff.2 hidle), h⟩
      · next hidle =>
        split at h
        · next hparent => exact ⟨_, .back here (Path.component?_eq_parent_iff.2 hparent), h⟩
        · next hparent =>
          have hname := Path.component?_eq_name_iff.2 ⟨hidle, hparent, rfl⟩
          split at h
          · cases h
          · next hshort =>
            split at h
            · cases h
            · next sub hsub => exact ⟨_, .down here hname (Nat.not_lt.1 hshort) hsub, h⟩
  · rintro ⟨middle, hmiddle, h⟩
    cases hmiddle with
    | idle here hpiece =>
      rw [here]
      simpa [Path.component?_eq_none_iff.1 hpiece] using h
    | back here hpiece =>
      obtain rfl := Path.component?_eq_parent_iff.1 hpiece
      rw [here]
      exact h
    | down here hpiece hshort hsub =>
      obtain ⟨hidle, hparent, -⟩ := Path.component?_eq_name_iff.1 hpiece
      rw [here]
      simpa [hidle, hparent, Nat.not_lt.2 hshort, hsub] using h

/-- Pieces that can be followed lead where their components lead. -/
theorem placeOf_follow (h : t.follow trail pieces = .ok trail') :
    placeOf trail' = (pieces.filterMap Path.component?).foldl stepFrom (placeOf trail) := by
  induction pieces generalizing trail with
  | nil =>
    rw [follow] at h
    cases h
    rfl
  | cons piece pieces ih =>
    obtain ⟨middle, hmiddle, hrest⟩ := follow_cons_eq_ok_iff.1 h
    rw [ih hrest]
    cases hmiddle with
    | idle _ hpiece => rw [List.filterMap_cons_none hpiece]
    | back _ hpiece => rw [List.filterMap_cons_some hpiece, List.foldl_cons, stepFrom, placeOf_tail]
    | down _ hpiece => rw [List.filterMap_cons_some hpiece, List.foldl_cons, stepFrom, placeOf_cons]

/-- Following some pieces and then others. -/
theorem follow_append_eq_ok_iff {before after : List (List Char)} :
    t.follow trail (before ++ after) = .ok trail' ↔
      ∃ middle, t.follow trail before = .ok middle ∧ t.follow middle after = .ok trail' := by
  induction before generalizing trail with
  | nil => simp [follow]
  | cons piece before ih =>
    simp only [List.cons_append, follow_cons_eq_ok_iff, ih]
    constructor
    · rintro ⟨next, hnext, middle, hmiddle, hrest⟩
      exact ⟨middle, ⟨next, hnext, hmiddle⟩, hrest⟩
    · rintro ⟨middle, ⟨next, hnext, hmiddle⟩, hrest⟩
      exact ⟨next, hnext, middle, hmiddle, hrest⟩

/-- Only in a directory can anything be followed. -/
theorem follow_idle (h : t.follow trail pieces = .ok trail') (hne : pieces ≠ []) :
    t.follow trail [[]] = .ok trail := by
  cases pieces with
  | nil => exact absurd rfl hne
  | cons piece pieces =>
    obtain ⟨middle, hmiddle, -⟩ := follow_cons_eq_ok_iff.1 h
    refine follow_cons_eq_ok_iff.2 ⟨trail, ?_, rfl⟩
    cases hmiddle with
    | idle here => exact .idle here rfl
    | back here => exact .idle here rfl
    | down here => exact .idle here rfl

theorem trailOf_eq_ok_iff :
    t.trailOf cwd p = .ok trail ↔
      '\x00' ∉ p.chars ∧ byteLength p.chars ≤ maxPathBytes ∧ p.chars ≠ [] ∧
        t.follow [] (splitAt '/' (cwd.join p).chars) = .ok trail := by
  rw [trailOf]
  split
  · next hnul => exact iff_of_false nofun fun h => h.1 (List.contains_iff_mem.1 hnul)
  · next hnul =>
    split
    · next hbytes => exact iff_of_false nofun fun h => absurd h.2.1 (Nat.not_le.2 hbytes)
    · next hbytes =>
      split
      · next hempty => exact iff_of_false nofun fun h => h.2.2.1 (List.isEmpty_iff.1 hempty)
      · next hempty =>
        rw [List.contains_iff_mem] at hnul
        rw [List.isEmpty_iff] at hempty
        exact ⟨fun h => ⟨hnul, Nat.not_lt.1 hbytes, hempty, h⟩, fun h => h.2.2.2⟩

theorem locate_eq_ok_iff {place : Place} :
    t.locate cwd p = .ok place ↔ ∃ trail, t.trailOf cwd p = .ok trail ∧ placeOf trail = place := by
  rw [locate]
  cases t.trailOf cwd p with
  | error fault => simp [Except.map]
  | ok trail => simp [Except.map, placeOf]

/-- **An absolute path that leads somewhere leads where its components lead.** -/
theorem locate_eq {place : Place} (hp : p.isAbsolute) (h : t.locate cwd p = .ok place) :
    place = p.components.foldl stepFrom [] := by
  obtain ⟨trail, htrail, rfl⟩ := locate_eq_ok_iff.1 h
  have hfollow := (trailOf_eq_ok_iff.1 htrail).2.2.2
  rw [Path.join_of_isAbsolute hp] at hfollow
  rw [Path.components_of_isAbsolute hp]
  exact placeOf_follow hfollow

theorem exists_trailOf_of_isFile (h : t.isFile cwd p) : ∃ trail, t.trailOf cwd p = .ok trail := by
  rw [isFile, look] at h
  cases htrail : t.trailOf cwd p with
  | ok trail => exact ⟨trail, rfl⟩
  | error fault =>
    rw [htrail] at h
    cases h

/-- What leads on from an absolute path leads to it first. -/
theorem exists_locate_of_join (h : base.isAbsolute) (hp : p.isAbsolute = false)
    (hjoin : t.trailOf cwd (base.join p) = .ok trail) : ∃ place, t.locate cwd base = .ok place := by
  obtain ⟨hnul, hbytes, -, hfollow⟩ := trailOf_eq_ok_iff.1 hjoin
  obtain ⟨lead, hsplit, hbase⟩ := Path.exists_splitAt_join base hp
  obtain ⟨more, hmore⟩ := Path.exists_chars_join base hp
  rw [Path.join_of_isAbsolute (Path.isAbsolute_join h), hsplit] at hfollow
  -- the pieces of the base can be followed, since those behind it are followed from there
  obtain ⟨middle, hlead, hrest⟩ := follow_append_eq_ok_iff.1 hfollow
  refine ⟨_, locate_eq_ok_iff.2 ⟨middle, trailOf_eq_ok_iff.2 ⟨?_, ?_, ?_, ?_⟩, rfl⟩⟩
  · intro hmem
    exact hnul (hmore ▸ List.mem_append_left _ hmem)
  · rw [hmore, byteLength_append] at hbytes
    omega
  · obtain ⟨cs, hcs⟩ := Path.exists_of_isAbsolute h
    simp [hcs]
  · rw [Path.join_of_isAbsolute h]
    rcases hbase with hbase | hbase
    · rw [hbase, hlead]
    · rw [hbase]
      exact follow_append_eq_ok_iff.2 ⟨middle, hlead, follow_idle hrest (splitAt_ne_nil _ _)⟩

end FileTree

end StagingAudit

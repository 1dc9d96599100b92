import StagingAudit.Path
import StagingAudit.Proofs.Text.Offset

/-!
# Joined paths

A path is where it starts and what it goes through: its components are its head, if it has one,
and its *steps*, the names and `..` between the separators (`components_eq`). Joining puts one
separator between two texts unless one is there, so **the components of a joined path are those of
its base and the steps of the path behind it** (`components_join`).

What is left of a joined path below its base is the path behind it, without the idle pieces at its
ends (`below?_join`). Nothing of the base is left in it, however the base is written.
-/

namespace StagingAudit

namespace Path

variable {base p : Path} {pieces lead rest : List (List Char)}

/-! ## Pieces -/

theorem component?_eq_none_iff {piece : List Char} : component? piece = none ↔ isIdle piece := by
  rw [component?]
  split
  · simpa
  · next hidle =>
    refine iff_of_false ?_ hidle
    split <;> simp

theorem component?_eq_parent_iff {piece : List Char} :
    component? piece = some .parent ↔ piece = ['.', '.'] := by
  rw [component?]
  split
  · next hidle =>
    refine iff_of_false nofun ?_
    rintro rfl
    cases hidle
  · split <;> simpa

theorem component?_eq_name_iff {piece n : List Char} :
    component? piece = some (.name n) ↔ ¬isIdle piece ∧ piece ≠ ['.', '.'] ∧ piece = n := by
  rw [component?]
  split
  · next hidle => exact iff_of_false nofun fun h => h.1 hidle
  · next hidle =>
    split
    · next hparent => exact iff_of_false nofun fun h => h.2.1 hparent
    · next hparent => simp [hidle, hparent]

/-- Separators that are put between pieces part them again. -/
theorem splitAt_joinPieces (hne : pieces ≠ []) (hsep : ∀ piece ∈ pieces, '/' ∉ piece) :
    splitAt '/' (joinPieces pieces) = pieces := by
  induction pieces with
  | nil => exact absurd rfl hne
  | cons piece pieces ih =>
    have hpiece := splitAt_of_not_mem (hsep piece (.head _))
    cases pieces with
    | nil => simpa [joinPieces] using hpiece
    | cons next pieces =>
      have hjoin : joinPieces (piece :: next :: pieces) =
          piece ++ '/' :: joinPieces (next :: pieces) := by
        simp [joinPieces]
      rw [hjoin, splitAt_append, hpiece, ih (by simp) fun q hq => hsep q (.tail _ hq)]
      rfl

/-! ## Steps -/

/-- The names and `..` that a path goes through. -/
def steps (p : Path) : List Component := (splitAt '/' p.chars).filterMap component?

theorem steps_joinPieces (hsep : ∀ piece ∈ pieces, '/' ∉ piece) :
    steps ⟨joinPieces pieces⟩ = pieces.filterMap component? := by
  cases pieces with
  | nil => rfl
  | cons piece pieces => rw [steps, splitAt_joinPieces (by simp) hsep]

theorem exists_of_isAbsolute (h : p.isAbsolute) : ∃ cs, p.chars = '/' :: cs := by
  rw [isAbsolute, beq_iff_eq, List.head?_eq_some_iff] at h
  exact h

theorem head?_of_isAbsolute (h : p.isAbsolute) : p.head? = some .root := if_pos h

/-- The pieces of a path are those of its text, apart from an idle one that makes up the head. -/
theorem exists_splitAt_eq (p : Path) :
    ∃ idle, splitAt '/' p.chars = idle ++ p.pieces ∧ idle.filterMap component? = [] := by
  rw [pieces]
  cases hhead : p.head? with
  | none => exact ⟨[], rfl, rfl⟩
  | some head =>
    cases hsplit : splitAt '/' p.chars with
    | nil => exact absurd hsplit (splitAt_ne_nil _ _)
    | cons first later =>
      refine ⟨[first], rfl, ?_⟩
      have hfirst : isIdle first := by
        rw [head?] at hhead
        split at hhead
        · next habsolute =>
          obtain ⟨cs, hcs⟩ := exists_of_isAbsolute habsolute
          rw [hcs, splitAt, if_pos rfl, List.cons.injEq] at hsplit
          rw [← hsplit.1]
          rfl
        · split at hhead
          · next hdot =>
            rw [hsplit, List.head?_cons, Option.some.injEq] at hdot
            rw [hdot]
            rfl
          · cases hhead
      simp [component?_eq_none_iff.2 hfirst]

theorem separator_not_mem_pieces {piece : List Char} (h : piece ∈ p.pieces) : '/' ∉ piece := by
  obtain ⟨idle, hsplit, -⟩ := exists_splitAt_eq p
  have htext : piece ∈ splitAt '/' p.chars := hsplit ▸ List.mem_append_right idle h
  exact not_mem_of_mem_splitAt htext

theorem filterMap_pieces (p : Path) : p.pieces.filterMap component? = p.steps := by
  obtain ⟨idle, hsplit, hidle⟩ := exists_splitAt_eq p
  rw [steps, hsplit, List.filterMap_append, hidle, List.nil_append]

/-- The components of a path are its head and its steps. -/
theorem components_eq (p : Path) : p.components = p.head?.toList ++ p.steps := by
  rw [components, filterMap_pieces]

theorem components_of_isAbsolute (h : p.isAbsolute) : p.components = .root :: p.steps := by
  rw [components_eq, head?_of_isAbsolute h]
  rfl

/-! ## Joining -/

theorem join_of_isAbsolute (h : p.isAbsolute) : base.join p = p := if_pos h

theorem exists_chars_join (base : Path) (hp : p.isAbsolute = false) :
    ∃ more, (base.join p).chars = base.chars ++ more := by
  rw [join, if_neg (by simp [hp])]
  split <;> exact ⟨_, rfl⟩

/-- The pieces of a joined text are those of both, less an empty one between them if the first
text ends with a separator. -/
theorem exists_splitAt_join (base : Path) (hp : p.isAbsolute = false) :
    ∃ lead, splitAt '/' (base.join p).chars = lead ++ splitAt '/' p.chars ∧
      (splitAt '/' base.chars = lead ∨ splitAt '/' base.chars = lead ++ [[]]) := by
  rw [join, if_neg (by simp [hp])]
  split
  · next hend =>
    rw [Bool.or_eq_true, List.isEmpty_iff, beq_iff_eq, List.getLast?_eq_some_iff] at hend
    rcases hend with hempty | ⟨before, hbefore⟩
    · exact ⟨[], by simp [hempty], .inr (by simp [hempty, splitAt])⟩
    · refine ⟨splitAt '/' before, ?_, .inr ?_⟩
      · simp [hbefore, splitAt_append]
      · rw [hbefore, splitAt_append]
        rfl
  · exact ⟨splitAt '/' base.chars, splitAt_append .., .inl rfl⟩

/-- The pieces in front of the joined path stand for the steps of the base. -/
theorem filterMap_lead (h : splitAt '/' base.chars = lead ∨ splitAt '/' base.chars = lead ++ [[]]) :
    lead.filterMap component? = base.steps := by
  rcases h with h | h
  · rw [steps, h]
  · rw [steps, h]
    simp [component?, isIdle]

theorem steps_join (base : Path) (hp : p.isAbsolute = false) :
    (base.join p).steps = base.steps ++ p.steps := by
  obtain ⟨lead, hjoin, hlead⟩ := exists_splitAt_join base hp
  rw [steps, hjoin, List.filterMap_append, filterMap_lead hlead]
  rfl

theorem isAbsolute_join (h : base.isAbsolute) : (base.join p).isAbsolute := by
  rw [join]
  split
  · assumption
  · obtain ⟨cs, hcs⟩ := exists_of_isAbsolute h
    split <;> simp [isAbsolute, hcs]

/-- A path starts from the root, from `.` or from nowhere in particular. -/
theorem head?_cases (p : Path) : p.head? = some .root ∨ p.head? = some .here ∨ p.head? = none := by
  rw [head?]
  split
  · exact .inl rfl
  · split
    · exact .inr (.inl rfl)
    · exact .inr (.inr rfl)

theorem fileName?_eq_some_iff {n : List Char} :
    p.fileName? = some n ↔ p.steps.getLast? = some (.name n) := by
  rw [fileName?, components_eq, List.getLast?_append]
  cases p.steps.getLast? with
  | some k => cases k <;> simp
  | none => rcases head?_cases p with h | h | h <;> simp [h]

/-- A joined path keeps the file name of the path behind it. -/
theorem fileName?_join (base : Path) {n : List Char} (h : p.fileName? = some n) :
    (base.join p).fileName? = some n := by
  cases hp : p.isAbsolute with
  | true => rwa [join_of_isAbsolute hp]
  | false =>
    rw [fileName?_eq_some_iff] at h ⊢
    rw [steps_join base hp, List.getLast?_append, h, Option.some_or]

theorem extension?_join (base : Path) {e : List Char} (h : p.extension? = some e) :
    (base.join p).extension? = some e := by
  obtain ⟨n, hn, he⟩ := Option.bind_eq_some_iff.1 h
  exact Option.bind_eq_some_iff.2 ⟨n, fileName?_join base hn, he⟩

/-! ## What is left below the base

The base is taken away by components, while what is left is made from the pieces of the text. So the
pieces of the joined path are parted into those that stand for the steps of the base, whatever idle
pieces are among them, and those of the path that was joined (`exists_pieces_join`). Taking away the
components of the base then takes away the first, and idle pieces that follow them. -/

/-- A path without the idle pieces at its ends. -/
def trimmed (p : Path) : Path :=
  ⟨joinPieces (dropIdleEnd ((splitAt '/' p.chars).dropWhile isIdle))⟩

/-- Dropping the components of the first pieces leaves the later ones, apart from idle pieces
before them. -/
theorem dropComponents_append (lead rest : List (List Char)) :
    (dropComponents (lead.filterMap component?) (lead ++ rest)).map (·.dropWhile isIdle) =
      some (rest.dropWhile isIdle) := by
  induction lead with
  | nil => rw [List.filterMap_nil, List.nil_append, dropComponents, Option.map_some]
  | cons piece lead ih =>
    cases hpiece : component? piece with
    | some k =>
      rw [List.filterMap_cons_some hpiece, List.cons_append, dropComponents, hpiece]
      simpa using ih
    | none =>
      rw [List.filterMap_cons_none hpiece, List.cons_append]
      cases hleft : lead.filterMap component? with
      | nil =>
        rw [hleft, dropComponents, Option.map_some] at ih
        rw [dropComponents, Option.map_some,
          List.dropWhile_cons_of_pos (component?_eq_none_iff.1 hpiece), ih]
      | cons k ks =>
        rw [hleft] at ih
        rw [dropComponents, hpiece, ih]

/-- The pieces of a path below an absolute one: first some with the steps of the base. -/
theorem exists_pieces_join (h : base.isAbsolute) (hp : p.isAbsolute = false) :
    ∃ lead, (base.join p).pieces = lead ++ splitAt '/' p.chars ∧
      lead.filterMap component? = base.steps := by
  obtain ⟨lead, hjoin, hlead⟩ := exists_splitAt_join base hp
  obtain ⟨cs, hcs⟩ := exists_of_isAbsolute h
  have hbase : splitAt '/' base.chars = [] :: splitAt '/' cs := by rw [hcs, splitAt, if_pos rfl]
  have hsteps : lead.filterMap component? = base.steps := filterMap_lead hlead
  -- the text of the base starts with a separator, so there is a piece before it
  obtain ⟨later, rfl⟩ : ∃ later, lead = [] :: later := by
    rw [hbase] at hlead
    cases lead with
    | nil =>
      rcases hlead with hlead | hlead
      · cases hlead
      · exact absurd (List.cons.inj hlead).2 (splitAt_ne_nil _ _)
    | cons first later =>
      have hfirst : [] = first := by
        rcases hlead with hlead | hlead
        · exact (List.cons.inj hlead).1
        · exact (List.cons.inj hlead).1
      exact ⟨later, by rw [hfirst]⟩
  refine ⟨later, ?_, hsteps⟩
  rw [pieces, head?_of_isAbsolute (isAbsolute_join h), hjoin]
  rfl

/-- What is left of a joined path below its base is the path that was joined to it. -/
theorem below?_join (h : base.isAbsolute) (hp : p.isAbsolute = false) :
    below? base (base.join p) = some p.trimmed := by
  obtain ⟨lead, hpieces, hlead⟩ := exists_pieces_join h hp
  have hdrop := dropComponents_append lead (splitAt '/' p.chars)
  rw [hlead, Option.map_eq_some_iff] at hdrop
  obtain ⟨left, hleft, htrim⟩ := hdrop
  rw [below?, components_of_isAbsolute h, head?_of_isAbsolute (isAbsolute_join h), hpieces]
  simp only [if_pos, below?.rest, hleft, Option.map_some, htrim, trimmed]

end Path

end StagingAudit

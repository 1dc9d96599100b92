import StagingAudit.Proofs.Region.Boundary
import StagingAudit.Proofs.Text.Barrier

/-!
# Closing parentheses

No introduction of a block goes past a closing parenthesis, and neither does the end of a block,
apart from the one it starts with. So **what is found in a text up to a closing parenthesis is found
whatever follows it**, and where nothing is found, nothing that reaches over the parenthesis is.
-/

namespace StagingAudit

theorem haltsAt_openBody : openBody.HaltsAt ')' :=
  Recogniser.HaltsAt.bind (Recogniser.haltsAt_run (by decide)) <|
    Recogniser.HaltsAt.bind (Recogniser.haltsAt_folded (by decide)) <|
      (Recogniser.haltsAt_literal (by decide)).behindWhite (by decide)

/-! ## Introductions by name -/

section Name

variable {name : List Char} {prev : Option Char}

/-- An introduction takes something. -/
theorem introduces_nil (hname : IsPlainName name) : introduces name prev [] = none := by
  obtain ⟨p, ps, rfl⟩ := List.exists_cons_of_ne_nil hname.ne_nil
  rw [introduces]
  split <;> rfl

/-- It sees no further than a closing parenthesis. -/
theorem introduces_append (hname : IsPlainName name) (v w : List Char) :
    introduces name prev (v ++ ')' :: w) = (introduces name prev v).map (· ++ ')' :: w) := by
  have hletter : ∀ p ∈ name, sameLetter p ')' = false := by
    intro p hp
    rw [← Bool.not_eq_true]
    intro hsame
    cases isWord_of_sameLetter (hname.isAscii p hp) (hname.isWord p hp) hsame
  have hbehind : Recogniser.HaltsAt (fun cs => (Recogniser.folded name cs).bind openBody) ')' :=
    (Recogniser.haltsAt_folded hletter).bind haltsAt_openBody
  have hedge : wordEdge prev (v ++ ')' :: w).head? = wordEdge prev v.head? := by
    cases v with
    | nil => rfl
    | cons d v => rfl
  rw [introduces, introduces, hedge]
  split
  · exact hbehind v w
  · rfl

theorem halts_introduces (hname : IsPlainName name) : Halts ')' (introduces name) :=
  ⟨fun _ => introduces_nil hname, fun _ v w _ => introduces_append hname v w⟩

/-- The introduction that a search finds up to a closing parenthesis is found whatever follows. -/
theorem fromBody?_append {a b body : List Char} (hname : IsPlainName name)
    (h : fromBody? name a = some body) :
    fromBody? name (a ++ ')' :: b) = some (body ++ ')' :: b) := by
  obtain ⟨⟨before, body'⟩, hscan, rfl⟩ := Option.map_eq_some_iff.1 h
  rw [fromBody?, (halts_introduces hname).scan?_append, hscan]
  rfl

end Name

/-! ## The end of a block -/

/-- The end of a block sees no further than the next closing parenthesis. -/
theorem halts_nextBlock : Halts ')' fun _ => nextBlock := by
  have hbehind : Recogniser.HaltsAt (fun cs => (Recogniser.literal [','] (skipWhite cs)).bind
      fun cs => (Recogniser.word (skipWhite cs)).bind openBody) ')' :=
    Recogniser.HaltsAt.bind
      ((Recogniser.haltsAt_literal (by decide)).behindWhite (by decide))
      (Recogniser.HaltsAt.bind ((Recogniser.haltsAt_run (by decide)).behindWhite (by decide))
        haltsAt_openBody)
  refine ⟨fun _ => rfl, fun _ v w hv => ?_⟩
  obtain ⟨d, v, rfl⟩ := List.exists_cons_of_ne_nil hv
  have hcons : ∀ cs, nextBlock (d :: cs) = if ')' = d then
      (Recogniser.literal [','] (skipWhite cs)).bind
        fun cs => (Recogniser.word (skipWhite cs)).bind openBody else none := by
    intro cs
    rw [nextBlock, Recogniser.literal]
    split <;> rfl
  rw [List.cons_append, hcons, hcons]
  split
  · exact hbehind v w
  · rfl

/-- A region in which no block ends before a closing parenthesis goes on from it. -/
theorem upToNextBlock_append {body : List Char} (h : find? nextBlock body = none)
    (tail : List Char) :
    upToNextBlock (body ++ ')' :: tail) = body ++ upToNextBlock (')' :: tail) := by
  rw [upToNextBlock, find?_append_of_none halts_nextBlock h, upToNextBlock]
  cases find? nextBlock (')' :: tail) <;> rfl

/-- A parenthesis without a comma behind it ends no block. -/
theorem nextBlock_of_head? {rest : List Char} (h : (skipWhite rest).head? ≠ some ',') :
    nextBlock (')' :: rest) = none := by
  have hcomma : Recogniser.literal [','] (skipWhite rest) = none := by
    rw [← Option.not_isSome_iff_eq_none, Option.isSome_iff_exists]
    rintro ⟨after, hafter⟩
    rw [Recogniser.literal_eq_some_iff.1 hafter] at h
    exact h rfl
  simp [nextBlock, Recogniser.literal, hcomma]

end StagingAudit

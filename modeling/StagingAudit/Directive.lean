import StagingAudit.Text.Bytes
import StagingAudit.Text.Recogniser

/-!
# Template directives

A model is SQL with template directives in it: blocks, expressions and comments, each between its
own pair of brackets. Stripping overwrites every complete directive in place. Line breaks inside
one survive and every other character becomes as many spaces as it has UTF-8 bytes, so **the
stripped text has the byte length and the line breaks of the raw one**, and an offset found in one
of them is good in the other.

A directive closes at the first closing bracket that starts at or after the end of its opening
one. An opening bracket with no such bracket is ordinary text.
-/

namespace StagingAudit

/-- The kinds of template directive. -/
inductive Directive where
  /-- a statement, between percent brackets -/
  | block
  /-- a value, between double braces -/
  | expression
  /-- a remark, between number-sign brackets -/
  | comment
  deriving DecidableEq, Repr

/-! ## Blanking -/

/-- What blanking writes for one character: line breaks stay, anything else is as many spaces as
it has bytes. -/
def blankChar (c : Char) : List Char :=
  if c = '\n' ∨ c = '\r' then [c] else List.replicate c.utf8Size ' '

/-- White space of the same byte length, with the same line breaks. -/
def blank (span : List Char) : List Char := span.flatMap blankChar

theorem byteLength_spaces (n : Nat) : byteLength (List.replicate n ' ') = n := by
  induction n with
  | zero => rfl
  | succ n ih =>
    rw [List.replicate_succ, byteLength_cons, ih, show Char.utf8Size ' ' = 1 from rfl, Nat.add_comm]

theorem byteLength_blankChar (c : Char) : byteLength (blankChar c) = c.utf8Size := by
  unfold blankChar
  split
  · simp
  · exact byteLength_spaces _

/-- Blanking keeps the byte length. -/
@[simp]
theorem byteLength_blank (span : List Char) : byteLength (blank span) = byteLength span := by
  induction span with
  | nil => rfl
  | cons c cs ih => simp [blank, byteLength_blankChar] at ih ⊢; exact ih

/-! ## Stripping -/

namespace Directive

/-- The opening bracket of a kind. -/
def opener : Directive → List Char
  | block => ['\x7b', '%']
  | expression => ['\x7b', '\x7b']
  | comment => ['\x7b', '#']

/-- The closing bracket of a kind. -/
def closer : Directive → List Char
  | block => ['%', '\x7d']
  | expression => ['\x7d', '\x7d']
  | comment => ['#', '\x7d']

/-- The complete directive of a kind that starts the text, as its span and the text after it. -/
def span? (d : Directive) (cs : List Char) : Option (List Char × List Char) :=
  match Recogniser.literal d.opener cs with
  | none => none
  | some inner =>
    match cutAt? d.closer inner with
    | none => none
    | some (body, after) => some (d.opener ++ body ++ d.closer, after)

/-- A directive and the text after it make up the text. -/
theorem eq_of_span? {d : Directive} {cs span after : List Char}
    (h : d.span? cs = some (span, after)) : cs = span ++ after := by
  unfold span? at h
  split at h
  · cases h
  · next inner hi =>
    split at h
    · cases h
    · next body rest hb =>
      cases h
      rw [Recogniser.literal_eq_some_iff] at hi
      rw [hi, eq_of_cutAt? hb]
      simp

/-- A directive is not empty. -/
theorem length_lt_of_span? {d : Directive} {cs span after : List Char}
    (h : d.span? cs = some (span, after)) : after.length < cs.length := by
  have hspan : 0 < span.length := by
    unfold span? at h
    split at h
    · cases h
    · split at h
      · cases h
      · cases h
        cases d <;> simp [opener]
  rw [eq_of_span? h, List.length_append]
  omega

/-- Whether an opening bracket starts the text. -/
def opens (d : Directive) (cs : List Char) : Bool := (Recogniser.literal d.opener cs).isSome

/-- Blanks every complete directive of one kind, from left to right. After an opening bracket that
is never closed no other one is closed, so the text is left as it is from there on. -/
def strip (d : Directive) (cs : List Char) : List Char :=
  match _h : d.span? cs with
  | some (span, after) => blank span ++ d.strip after
  | none =>
    if d.opens cs then cs
    else
      match cs with
      | [] => []
      | c :: rest => c :: d.strip rest
termination_by cs.length
decreasing_by
  · exact length_lt_of_span? (by assumption)
  · simp

/-- A directive at the start is blanked. -/
theorem strip_of_span? {d : Directive} {cs span after : List Char}
    (h : d.span? cs = some (span, after)) : d.strip cs = blank span ++ d.strip after := by
  rw [strip]
  split
  · next h' =>
    rw [h] at h'
    cases h'
    rfl
  · next h' =>
    rw [h] at h'
    cases h'

@[simp]
theorem strip_nil (d : Directive) : d.strip [] = [] := by
  rw [strip]
  cases d <;> rfl

/-- A text in which no directive starts is left as it is. -/
theorem strip_eq_self {d : Directive} {cs : List Char}
    (h : ∀ before rest, cs = before ++ rest → d.span? rest = none) : d.strip cs = cs := by
  induction cs with
  | nil => simp
  | cons c cs ih =>
    have htail : d.strip cs = cs := by
      refine ih fun before rest hcs => h (c :: before) rest ?_
      rw [hcs, List.cons_append]
    rw [strip]
    split
    · next h' =>
      rw [h [] (c :: cs) rfl] at h'
      cases h'
    · split
      · rfl
      · show c :: d.strip cs = c :: cs
        rw [htail]

/-- After an opening bracket that is never closed there is no directive. -/
theorem span?_eq_none_of_opens {d : Directive} {cs before rest : List Char}
    (hopen : d.opens cs = true) (hspan : d.span? cs = none) (hcs : cs = before ++ rest) :
    d.span? rest = none := by
  obtain ⟨inner, hinner⟩ := Option.isSome_iff_exists.1 hopen
  have hcut : cutAt? d.closer inner = none := by
    unfold span? at hspan
    rw [hinner] at hspan
    split at hspan
    · next h => cases h
    · next h =>
      cases h
      split at hspan
      · assumption
      · cases hspan
  rw [Recogniser.literal_eq_some_iff] at hinner
  cases hrest : d.span? rest with
  | none => rfl
  | some found =>
    exfalso
    unfold span? at hrest
    split at hrest
    · cases hrest
    · next inner' hinner' =>
      split at hrest
      · cases hrest
      · next body after hbody =>
        rw [Recogniser.literal_eq_some_iff] at hinner'
        have htext : d.opener ++ inner = (before ++ d.opener) ++ inner' := by
          rw [← hinner, hcs, hinner', List.append_assoc]
        obtain ⟨skipped, hskipped⟩ : ∃ skipped, inner = skipped ++ inner' := by
          rcases List.append_eq_append_iff.1 htext with ⟨as, h1, h2⟩ | ⟨bs, h1, h2⟩
          · exact ⟨as, h2⟩
          · have hnil : bs = [] := by
              have := congrArg List.length h1
              simp only [List.length_append] at this
              exact List.eq_nil_of_length_eq_zero (by omega)
            subst hnil
            exact ⟨[], by simpa using h2.symm⟩
        refine ne_of_cutAt?_eq_none hcut (skipped ++ body) after ?_
        rw [hskipped, eq_of_cutAt? hbody]
        simp

/-- A character that starts no directive stays. -/
theorem strip_cons {d : Directive} {c : Char} {rest : List Char} (h : d.span? (c :: rest) = none) :
    d.strip (c :: rest) = c :: d.strip rest := by
  rw [strip]
  split
  · next h' =>
    rw [h] at h'
    cases h'
  · split
    · next hopen =>
      have hself : d.strip rest = rest := by
        refine strip_eq_self fun before tail hrest => ?_
        have hcons : c :: rest = (c :: before) ++ tail := by rw [hrest, List.cons_append]
        exact span?_eq_none_of_opens hopen h hcons
      rw [hself]
    · rfl

end Directive

/-- Blanks every template directive: statements first, then values, then remarks. -/
def stripDirectives (raw : List Char) : List Char :=
  Directive.comment.strip (Directive.expression.strip (Directive.block.strip raw))

end StagingAudit

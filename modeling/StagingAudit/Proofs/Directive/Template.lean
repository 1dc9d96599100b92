import StagingAudit.Proofs.Directive.Order

/-!
# Well-formed templates

A template as people write it: ordinary text without braces, and between two pieces of it one
directive with no brace inside. Each pass then finds the directives of its own kind where they were
written and passes over everything else (`Template.strip_writtenAs`), so **stripping blanks the
directives and nothing else** (`stripDirectives_template`).

One thing has to be excluded. Behind the two braces that open a value, a percent sign would make the
second one open a statement, which the first pass would take. A number sign does no harm, since
values are blanked before remarks are looked for; this is the only place where the order of the
passes enters.
-/

namespace StagingAudit

/-! ## Pieces of a template

Braces are in the brackets of directives and nowhere else, so a pass has two places to look at in a
piece: the first brace of an opening bracket and, in a bracket of two braces, the second one. At the
first it finds the directive if it is of its kind. At the second it might find one of another kind,
if the right sign follows (`span?_second`). -/

/-- Ordinary text: it has no braces. -/
structure PlainText where
  /-- the text -/
  chars : List Char
  /-- it has no braces -/
  plain : ∀ c ∈ braces, c ∉ chars

/-- A directive with no braces but those of its brackets. -/
structure PlainDirective where
  /-- the kind of its brackets -/
  kind : Directive
  /-- what stands between them -/
  body : List Char
  /-- no brace stands between them -/
  plain : ∀ c ∈ braces, c ∉ body
  /-- a value does not open a statement -/
  opens_once : kind = .expression → '%' ∉ body.head?

namespace PlainDirective

variable (d : PlainDirective)

/-- The directive with its brackets. -/
def text : List Char := d.kind.opener ++ (d.body ++ d.kind.closer)

/-- It is one directive and nothing more. -/
theorem whole : d.kind.Whole d.text := by
  refine ⟨d.body, rfl, fun u v huv => ?_⟩
  have hbrace : '\x7d' ∉ d.body := d.plain _ (by simp [braces])
  obtain ⟨c, hc⟩ : ∃ c, d.kind.closer = [c, '\x7d'] := by
    cases d.kind
    all_goals exact ⟨_, rfl⟩
  have hsplit : d.body ++ [c, '\x7d'] = (u ++ [c]) ++ '\x7d' :: v := by
    simpa [hc] using huv
  obtain ⟨more, hu, hrest⟩ := exists_append_of_not_mem hsplit hbrace
  cases more with
  | nil =>
    -- the bracket would close with a brace of the body
    obtain ⟨rfl, -⟩ := List.cons.inj hrest
    exact absurd (by rw [← List.append_nil d.body, ← hu]; simp) hbrace
  | cons b more =>
    have hlen := congrArg List.length hrest
    simp only [List.length_append, List.length_cons, List.length_nil] at hlen
    exact List.eq_nil_of_length_eq_zero (by omega)

end PlainDirective

namespace Directive

variable {k : Directive} {d : PlainDirective}

/-- A pass for another kind finds no directive at the second character of one, unless it looks for
remarks and the directive is a value. -/
theorem span?_second {c : Char} (hc : d.kind.opener = ['\x7b', c]) (hne : k ≠ d.kind)
    (hremark : k = .comment → d.kind ≠ .expression) (rest : List Char) :
    k.span? (c :: (d.body ++ d.kind.closer ++ rest)) = none := by
  by_cases hbrace : c = '\x7b'
  · subst hbrace
    have hkind : d.kind = .expression := opener_injective hc
    have hk : k = .block := by
      cases k with
      | block => rfl
      | expression => exact absurd hkind.symm hne
      | comment => exact absurd hkind (hremark rfl)
    subst hk
    rw [← Option.not_isSome_iff_eq_none, span?_isSome_iff]
    rintro ⟨inner, after, heq⟩
    obtain ⟨-, hpercent⟩ := List.cons.inj heq
    -- a percent sign would have to stand where the body or the closing bracket starts
    cases hbody : d.body with
    | nil =>
      rw [hbody, hkind] at hpercent
      exact absurd (List.cons.inj hpercent).1 (by decide)
    | cons b body =>
      rw [hbody] at hpercent
      obtain ⟨rfl, -⟩ := List.cons.inj hpercent
      exact d.opens_once hkind (by rw [hbody]; rfl)
  · exact span?_cons_of_ne hbrace _

/-- Such a pass passes over the directive. -/
theorem strip_text_of_ne (hne : k ≠ d.kind) (hremark : k = .comment → d.kind ≠ .expression)
    (rest : List Char) : k.strip (d.text ++ rest) = d.text ++ k.strip rest := by
  obtain ⟨c, hc⟩ := exists_opener_eq d.kind
  have hfirst := d.whole.span?_eq_none hne rest
  have hsecond := span?_second hc hne hremark rest
  have hbehind : '\x7b' ∉ d.body ++ d.kind.closer := by
    rw [List.mem_append, not_or]
    refine ⟨d.plain _ (by simp [braces]), ?_⟩
    cases d.kind
    all_goals decide
  have htext : d.text = '\x7b' :: c :: (d.body ++ d.kind.closer) := by
    rw [PlainDirective.text, hc]
    rfl
  rw [htext, List.cons_append, List.cons_append] at hfirst ⊢
  rw [strip_cons hfirst, strip_cons hsecond, strip_append_of_not_mem hbehind]
  rfl

end Directive

/-! ## Templates -/

/-- Ordinary text and directives in turn. -/
inductive Template where
  /-- ordinary text to the end -/
  | ends (t : PlainText) : Template
  /-- ordinary text, a directive and what follows it -/
  | goesOn (t : PlainText) (d : PlainDirective) (rest : Template) : Template

namespace Template

/-- The text of a template, with each directive written in a given way. -/
def writtenAs (f : PlainDirective → List Char) : Template → List Char
  | ends t => t.chars
  | goesOn t d rest => t.chars ++ (f d ++ rest.writtenAs f)

/-- The text of a template. -/
def raw (t : Template) : List Char := t.writtenAs PlainDirective.text

/-- The text of a template with every directive blanked. -/
def blanked (t : Template) : List Char := t.writtenAs fun d => blank d.text

/-- Two templates have the same ordinary text, and one directive for another that leaves the same
when it is blanked. -/
inductive SameOutside : Template → Template → Prop where
  /-- the ordinary text at the end -/
  | ends (t : PlainText) : SameOutside (ends t) (ends t)
  /-- the ordinary text before two directives that leave the same -/
  | goesOn (t : PlainText) {d d' : PlainDirective} {rest rest' : Template} :
      blank d.text = blank d'.text → SameOutside rest rest' →
      SameOutside (goesOn t d rest) (goesOn t d' rest')

/-- Such templates are the same when their directives are blanked. -/
theorem SameOutside.blanked_eq {t t' : Template} (h : SameOutside t t') :
    t'.blanked = t.blanked := by
  induction h with
  | ends t => rfl
  | goesOn t hblank _ ih =>
    simp only [blanked, writtenAs] at ih ⊢
    rw [ih, hblank]

/-- A directive after passes for some kinds: it is blank if its kind was among them. -/
def afterPasses (done : List Directive) (d : PlainDirective) : List Char :=
  if d.kind ∈ done then blank d.text else d.text

/-- **A pass blanks the directives of its kind**, provided that no value is left when remarks are
looked for. -/
theorem strip_writtenAs {k : Directive} {done : List Directive}
    (hdone : k = .comment → .expression ∈ done) (t : Template) :
    k.strip (t.writtenAs (afterPasses done)) = t.writtenAs (afterPasses (k :: done)) := by
  have hopen : '\x7b' ∈ braces := by simp [braces]
  induction t with
  | ends t => exact Directive.strip_of_not_mem (t.plain _ hopen)
  | goesOn t d rest ih =>
    rw [writtenAs, Directive.strip_append_of_not_mem (t.plain _ hopen), writtenAs]
    congr 1
    by_cases hblank : d.kind ∈ done
    · -- it is blank already
      rw [afterPasses, if_pos hblank, afterPasses, if_pos (List.mem_cons_of_mem k hblank),
        Directive.strip_blank_append fun c hc => isBlank_of_mem_blank hc, ih]
    · rw [afterPasses, if_neg hblank, afterPasses]
      by_cases hk : d.kind = k
      · subst hk
        rw [if_pos List.mem_cons_self, Directive.strip_whole d.whole, ih]
      · rw [if_neg (by simp [hk, hblank]), Directive.strip_text_of_ne (Ne.symm hk), ih]
        rintro hcomment hvalue
        exact hblank (hvalue ▸ hdone hcomment)

end Template

/-- The three passes together blank every directive. -/
theorem stripDirectives_raw (t : Template) : stripDirectives t.raw = t.blanked := by
  have hraw : t.raw = t.writtenAs (Template.afterPasses []) := rfl
  have hall : Template.afterPasses [.comment, .expression, .block] = fun d => blank d.text := by
    funext d
    rw [Template.afterPasses, if_pos]
    cases d.kind
    all_goals decide
  rw [hraw, stripDirectives, Template.strip_writtenAs (by simp),
    Template.strip_writtenAs (by simp), Template.strip_writtenAs (by simp), hall, Template.blanked]

/-- **Stripping is exact on well-formed templates**: it blanks the directives and leaves all the
rest. So it does not tell two templates apart whose directives leave the same when blanked. -/
theorem stripDirectives_template (t : Template) :
    stripDirectives t.raw = t.blanked ∧
    ∀ t' : Template, t.SameOutside t' → stripDirectives t'.raw = stripDirectives t.raw := by
  refine ⟨stripDirectives_raw t, fun t' h => ?_⟩
  rw [stripDirectives_raw, stripDirectives_raw, h.blanked_eq]

/-- A query with one directive. -/
def queryTemplate (d : PlainDirective) : Template :=
  .goesOn ⟨"select % ".toList, by decide⟩ d (.ends ⟨"\nfrom t".toList, by decide⟩)

/-- A value that is written like a remark inside. -/
def remarkValue : PlainDirective := ⟨.expression, "# \u00e9\n#".toList, by decide, by decide⟩

/-- A remark of the same length, with a line break at the same place. -/
def percentRemark : PlainDirective := ⟨.comment, "100%\n ".toList, by decide, by decide⟩

/-- Such a value and such a remark leave the same text. -/
theorem stripDirectives_queryTemplate :
    (queryTemplate remarkValue).SameOutside (queryTemplate percentRemark) ∧
    stripDirectives (queryTemplate remarkValue).raw = "select %       \n   \nfrom t".toList ∧
    stripDirectives (queryTemplate percentRemark).raw =
      stripDirectives (queryTemplate remarkValue).raw := by
  have hsame : (queryTemplate remarkValue).SameOutside (queryTemplate percentRemark) :=
    .goesOn _ (by decide) (.ends _)
  obtain ⟨hexact, hother⟩ := stripDirectives_template (queryTemplate remarkValue)
  exact ⟨hsame, hexact.trans (by decide), hother _ hsame⟩

end StagingAudit

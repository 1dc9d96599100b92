import StagingAudit.Proofs.ConfigCall.RoundTrip
import StagingAudit.Rule.Battery

/-!
# What the rules on the configuration call find

Six rules are about the configuration call: one asks for it, the others for what it declares.
`BrokenBy` says of each of them when a declaration breaks it, without the check. **Each rule finds
one violation, on the line of the call, exactly when it is broken** (`findings_check`), so the
findings are those of the broken rules, in the order of the battery.

A call that opens a text is read back whatever follows it, and then the same can be said of the
text: its findings depend on what was written into the call, on the directory of the model and on
the conventions (`findings_callText`).

The rule that asks for a call also writes one into its advice. What it writes is what the other five
want, so **with the quoted call in the first line all six are silent** (`check_eq_nil_of_advice`).
-/

namespace StagingAudit

namespace RuleId

/-- The rules on the configuration call, as the battery has them. -/
def callRules : List RuleId := all.take 6

example : callRules =
    [configBlock, materializedView, tagsMissing, tagsStaging, tagsThird, tagsSource] := rfl

/-- Whether a call breaks a rule, in a model of a source directory, if the directory is known. The
rule that asks for a call is broken by none. -/
def BrokenBy (conventions : Conventions) (source : Option String) (call : ConfigCall) :
    RuleId → Prop
  | materializedView => call.materialization ≠ some conventions.materialization
  | tagsMissing => call.tags = []
  | tagsStaging => call.tags ≠ [] ∧ conventions.requiredTag ∉ call.tags
  | tagsThird => ∃ third ∈ call.tags[2]?, third ≠ conventions.thirdTag
  | tagsSource =>
    ∃ first ∈ call.tags[0]?, ∃ directory ∈ source, first ≠ conventions.sourceTag directory
  | _ => False

instance (conventions : Conventions) (source : Option String) (call : ConfigCall) :
    DecidablePred (BrokenBy conventions source call)
  | materializedView => inferInstanceAs (Decidable (_ ≠ _))
  | tagsMissing => inferInstanceAs (Decidable (_ = _))
  | tagsStaging => inferInstanceAs (Decidable (_ ≠ _ ∧ _ ∉ _))
  | tagsThird => inferInstanceAs (Decidable (∃ third ∈ call.tags[2]?, _ ≠ _))
  | tagsSource =>
    inferInstanceAs (Decidable (∃ first ∈ call.tags[0]?, ∃ directory ∈ source, _ ≠ _))
  | configBlock | blockPresence | blockOrder | surrogateKey | loadedAt | finalExplicitColumns
  | columnGrouping | finalSelect => inferInstanceAs (Decidable False)

/-- What a rule finds in a model: codes and lines. -/
def findings (id : RuleId) (severity : Severity) (m : Model) : List (String × Option Nat) :=
  (id.check severity m).map fun v => (v.code, v.line)

variable {id : RuleId} {m : Model} {call : ConfigCall}

/-- A check that is silent unless its rule is broken has one finding if it is. -/
theorem findings_unless {silent broken : Prop} [Decidable silent] [Decidable broken]
    (h : silent ↔ ¬broken) (severity : Severity) (message remediation : String)
    (line : Option Nat) :
    (if silent then [] else [id.violation severity message line remediation]).map
        (fun v => (v.code, v.line)) =
      if broken then [(id.code, line)] else [] := by
  by_cases hbroken : broken
  · rw [if_pos hbroken, if_neg fun hsilent => h.1 hsilent hbroken]
    rfl
  · rw [if_neg hbroken, if_pos (h.2 hbroken)]
    rfl

/-- **A rule on the call finds one violation, on the line of the call, if the call breaks it**, and
nothing otherwise. -/
theorem findings_check (hid : id ∈ callRules) (hline : m.configLine.isSome)
    (hcall : m.config = some call) (severity : Severity) :
    id.findings severity m =
      if BrokenBy m.conventions m.sourceName call id then [(id.code, some call.line)] else [] := by
  rw [findings]
  cases id with
  | configBlock =>
    obtain ⟨line, hline⟩ := Option.isSome_iff_exists.1 hline
    rw [check, checkConfigBlock, hline]
    rfl
  | materializedView =>
    rw [check, checkMaterializedView, hcall]
    exact findings_unless not_not.symm ..
  | tagsMissing =>
    rw [check, checkTagsMissing, hcall]
    dsimp only
    cases htags : call.tags with
    | nil =>
      rw [if_pos (show BrokenBy _ _ call tagsMissing from htags)]
      rfl
    | cons tag tags =>
      rw [if_neg (by simp [BrokenBy, htags])]
      rfl
  | tagsStaging =>
    rw [check, checkTagsStaging, hcall]
    refine findings_unless ?_ ..
    simp only [BrokenBy, List.isEmpty_iff, not_and_or, not_not]
  | tagsThird =>
    rw [check, checkTagsThird, hcall]
    dsimp only
    split
    · next tag tag' third tags htags =>
      refine findings_unless ?_ ..
      simp [BrokenBy, htags]
    · next hshort =>
      -- a list that has a third tag has the shape that was asked for before
      rw [if_neg]
      · rfl
      · rintro ⟨third, hthird, -⟩
        rcases htags : call.tags with _ | ⟨tag, _ | ⟨tag', _ | ⟨third', tags⟩⟩⟩
        all_goals rw [htags] at hthird
        · cases hthird
        · cases hthird
        · cases hthird
        · exact hshort _ _ _ _ htags
  | tagsSource =>
    rw [check, checkTagsSource, hcall]
    dsimp only
    rw [Model.expectedSourceTag]
    cases htags : call.tags with
    | nil =>
      rw [if_neg (by simp [BrokenBy, htags])]
      rfl
    | cons tag tags =>
      cases hsource : m.sourceName with
      | none =>
        rw [if_neg (by simp [BrokenBy])]
        rfl
      | some directory =>
        refine findings_unless ?_ ..
        simp [BrokenBy, htags]
  | _ => exact absurd hid (by decide)

/-- Together the rules on the call find what the broken ones find, in their order. -/
theorem flatMap_findings (hline : m.configLine.isSome) (hcall : m.config = some call)
    (severity : RuleId → Severity) :
    (callRules.flatMap fun id => id.findings (severity id) m) =
      (callRules.filter fun id => BrokenBy m.conventions m.sourceName call id).map
        fun id => (id.code, some call.line) := by
  have hrules : ∀ rules ⊆ callRules, (rules.flatMap fun id => id.findings (severity id) m) =
      (rules.filter fun id => BrokenBy m.conventions m.sourceName call id).map
        fun id => (id.code, some call.line) := by
    intro rules hsub
    induction rules with
    | nil => rfl
    | cons id rules ih =>
      obtain ⟨hid, hsub⟩ := List.cons_subset.1 hsub
      rw [List.flatMap_cons, findings_check hid hline hcall, ih hsub]
      by_cases hbroken : BrokenBy m.conventions m.sourceName call id
      · rw [if_pos hbroken, List.filter_cons_of_pos (by simpa using hbroken)]
        rfl
      · rw [if_neg hbroken, List.filter_cons_of_neg (by simpa using hbroken)]
        rfl
  exact hrules callRules (List.Subset.refl _)

end RuleId

/-! ## A text that starts with a call -/

/-- A call that is read has opened. -/
theorem Model.isSome_configLine_ofText {root path : Path} {raw : List Char}
    {conventions : Conventions} {call : ConfigCall}
    (h : (ofText root path raw conventions).config = some call) :
    (ofText root path raw conventions).configLine.isSome := by
  rw [config_ofText] at h
  obtain ⟨line, hline, -⟩ := Option.bind_eq_some_iff.1 h
  rw [configLine_ofText, hline, Option.isSome_some]

/-- **The verdict on a configuration call.** Let a text start with a call that gives some tags and
perhaps a materialization, and go on in any way. Then the call is read back as it was written, from
the first line. Whatever the severities, the path and the conventions, the six rules find there,
each once and in the order of the battery, exactly what is wrong with it. -/
theorem findings_callText (materialization : Option String) (tags : List String) (rest : List Char)
    (root path : Path) (conventions : Conventions) (severity : RuleId → Severity)
    (hm : ∀ m ∈ materialization, IsPlainName m.toList)
    (htags : ∀ t ∈ tags, IsPlainTag t ∧ '=' ∉ t.toList) :
    (Model.ofText root path (callText materialization tags ++ rest) conventions).config =
      some ⟨1, materialization, tags⟩ ∧
    (RuleId.callRules.flatMap fun id => id.findings (severity id)
        (Model.ofText root path (callText materialization tags ++ rest) conventions)) =
      (RuleId.callRules.filter fun id => RuleId.BrokenBy conventions
          (sourceNameOf? ((Path.below? root path).getD path) conventions.anchorDir)
          ⟨1, materialization, tags⟩ id).map
        fun id => (id.code, some 1) := by
  have hcall : (Model.ofText root path (callText materialization tags ++ rest) conventions).config =
      some ⟨1, materialization, tags⟩ := by
    rw [Model.config_ofText, ofRaw?_callText hm htags]
  refine ⟨hcall, ?_⟩
  rw [RuleId.flatMap_findings (Model.isSome_configLine_ofText hcall) hcall,
    Model.conventions_ofText, Model.sourceName_ofText]

/-- A further call behind the first one does not mend it. -/
theorem findings_callText_then_call :
    RuleId.callRules.flatMap (fun id => id.findings id.defaultSeverity
        (Model.ofText (.ofString ".") (.ofString "staging/oda/m.sql")
          (callText (some "table") ["oda ", "", "x"] ++ callText (some "view") ["oda", "staging"])
          {})) =
      [("MATERIALIZED_VIEW", some 1), ("TAGS_STAGING", some 1), ("TAGS_THIRD", some 1),
        ("TAGS_SOURCE", some 1)] := by
  refine (findings_callText (some "table") ["oda ", "", "x"] _ _ _ _ _ ?_ ?_).2.trans ?_
  · rintro m ⟨⟩
    exact ⟨⟨by decide, by decide⟩, by decide⟩
  · unfold IsPlainTag
    decide
  · decide +kernel

/-! ## Following the advice -/

/-- The call that an advice quotes: what stands there from the first opening brace on. -/
def quotedCall (advice : String) : List Char := advice.toList.dropWhile (· != '\x7b')

/-- The tags that a model should declare: that of its source system, or a stand-in for one that is
not known, and the two that are agreed on. -/
def Model.agreedTags (m : Model) : List String :=
  [m.expectedSourceTag.getD "source", m.conventions.requiredTag, m.conventions.thirdTag]

/-- The path settles these tags, whatever the text. -/
theorem Model.agreedTags_ofText (root path : Path) (raw : List Char) (conventions : Conventions) :
    (ofText root path raw conventions).agreedTags =
      [((sourceNameOf? ((Path.below? root path).getD path) conventions.anchorDir).map
        conventions.sourceTag).getD "source", conventions.requiredTag, conventions.thirdTag] := by
  rw [agreedTags, expectedSourceTag, sourceName_ofText, conventions_ofText]

section Advice

variable {m : Model} {severity : Severity} {v : Violation}

/-- The rule that asks for a call quotes one that declares what was agreed on. -/
theorem exists_advice_of_mem_check (h : v ∈ RuleId.configBlock.check severity m) :
    ∃ advice, v.remediation = some advice ∧
      quotedCall advice = configText m.conventions.materialization m.agreedTags := by
  rw [RuleId.check, RuleId.checkConfigBlock] at h
  split at h
  · cases h
  · obtain rfl := List.mem_singleton.1 h
    refine ⟨_, rfl, ?_⟩
    -- the text of the advice is one literal up to the materialization
    have hintro :
        "Add a config block at the top of the file:\n  \x7b\x7b config(materialized='".toList =
          "Add a config block at the top of the file:\n  ".toList ++
            ("\x7b\x7b config(".toList ++ "materialized='".toList) := by decide +kernel
    have hhead : ∀ c ∈ (configText m.conventions.materialization m.agreedTags).head?,
        (c != '\x7b') = false := by
      rw [configText_eq]
      rintro c ⟨⟩
      rfl
    have hprose : ∀ c ∈ "Add a config block at the top of the file:\n  ".toList,
        (c != '\x7b') = true := by decide +kernel
    rw [← dropWhile_append_eq hprose hhead, quotedCall]
    simp only [configText, suggestedTags, Model.agreedTags, String.toList_append, hintro,
      List.append_assoc]

/-- A call that declares what was agreed on breaks no rule. -/
theorem not_brokenBy_agreedTags (m : Model) (line : Nat) (id : RuleId) :
    ¬id.BrokenBy m.conventions m.sourceName
      ⟨line, some m.conventions.materialization, m.agreedTags⟩ := by
  cases id with
  | tagsSource =>
    rintro ⟨first, hfirst, directory, hdirectory, hne⟩
    obtain rfl : m.expectedSourceTag.getD "source" = first := by
      simpa [Model.agreedTags] using hfirst
    rw [Model.expectedSourceTag, Option.mem_def.1 hdirectory] at hne
    exact hne rfl
  | _ => simp [RuleId.BrokenBy, Model.agreedTags]

/-- So the rules on the call are silent about it. -/
theorem check_eq_nil_of_agreedTags {id : RuleId} (line : Nat) (hid : id ∈ RuleId.callRules)
    (hline : m.configLine.isSome)
    (hcall : m.config = some ⟨line, some m.conventions.materialization, m.agreedTags⟩) :
    id.check severity m = [] := by
  have hfindings := RuleId.findings_check hid hline hcall severity
  rw [if_neg (not_brokenBy_agreedTags m line id)] at hfindings
  exact List.map_eq_nil_iff.1 hfindings

end Advice

/-- **Following the advice helps.** Let the rule that asks for a call report a model, and let the
materialization and the tags that it wants be such that they can be written into a call. Then its
advice quotes that call, and with the quoted call as a new first line all six rules are silent. -/
theorem check_eq_nil_of_advice (root path : Path) (text : List Char) (conventions : Conventions)
    (severity : Severity) (v : Violation)
    (hm : IsPlainName conventions.materialization.toList)
    (htags : ∀ t ∈ [conventions.requiredTag, conventions.thirdTag], IsPlainTag t)
    (hsource : ∀ t ∈ (Model.ofText root path text conventions).expectedSourceTag, IsPlainTag t)
    (h : v ∈ RuleId.configBlock.check severity (Model.ofText root path text conventions)) :
    ∃ advice, v.remediation = some advice ∧
      quotedCall advice = configText conventions.materialization
        (Model.ofText root path text conventions).agreedTags ∧
      ∀ id ∈ RuleId.callRules, ∀ severity', id.check severity'
        (Model.ofText root path (quotedCall advice ++ '\n' :: text) conventions) = [] := by
  obtain ⟨advice, hadvice, hcall⟩ := exists_advice_of_mem_check h
  refine ⟨advice, hadvice, hcall, fun id hid severity' => ?_⟩
  have hplain : ∀ t ∈ (Model.ofText root path text conventions).agreedTags, IsPlainTag t := by
    intro t ht
    rcases List.mem_cons.1 ht with rfl | ht
    · cases hexpected : (Model.ofText root path text conventions).expectedSourceTag with
      | none => exact (by decide : ∀ c ∈ "source".toList, isTagChar c = true)
      | some tag => exact hsource tag hexpected
    · exact htags t ht
  -- the call is read back from the new first line, and the path still wants the same tags
  rw [hcall, Model.conventions_ofText]
  have hread := ofRaw?_configText hm hplain ('\n' :: text)
  rw [← Model.config_ofText root path _ conventions] at hread
  apply check_eq_nil_of_agreedTags 1 hid (Model.isSome_configLine_ofText hread)
  rw [hread, Model.conventions_ofText, Model.agreedTags_ofText, Model.agreedTags_ofText]

/-- Conventions with a source directory whose tag is not its name. -/
def dataConventions : Conventions := { sourceTags := [("oda", "ODA data")] }

/-- A model with some text in that directory. -/
def dataModel (text : List Char) : Model :=
  .ofText (.ofString ".") (.ofString "staging/oda/m.sql") text dataConventions

/-- A model without a call is reported there, and the advice mends it. -/
theorem check_eq_nil_of_advice_dataModel :
    ∃ v ∈ RuleId.configBlock.check .error (dataModel "select 1".toList),
      ∃ advice, v.remediation = some advice ∧
        quotedCall advice = configText "view" ["ODA data", "staging", "formentera"] ∧
        ∀ id ∈ RuleId.callRules, ∀ severity,
          id.check severity (dataModel (quotedCall advice ++ '\n' :: "select 1".toList)) = [] := by
  obtain ⟨v, hv⟩ := List.exists_mem_of_ne_nil
    (RuleId.configBlock.check .error (dataModel "select 1".toList)) (by decide +kernel)
  have hexpected : (dataModel "select 1".toList).expectedSourceTag = some "ODA data" := by
    decide +kernel
  have hm : IsPlainName dataConventions.materialization.toList :=
    ⟨⟨by decide, by decide⟩, by decide⟩
  have htags : ∀ t ∈ [dataConventions.requiredTag, dataConventions.thirdTag], IsPlainTag t := by
    unfold IsPlainTag
    decide
  have hsource : ∀ t ∈ (dataModel "select 1".toList).expectedSourceTag, IsPlainTag t := by
    rw [hexpected]
    rintro t ⟨⟩
    exact (by decide : ∀ c ∈ "ODA data".toList, isTagChar c = true)
  obtain ⟨advice, hadvice, hcall, hsilent⟩ := check_eq_nil_of_advice (.ofString ".")
    (.ofString "staging/oda/m.sql") _ dataConventions .error v hm htags hsource hv
  rw [← dataModel, Model.agreedTags, hexpected] at hcall
  exact ⟨v, hv, advice, hadvice, hcall, hsilent⟩

end StagingAudit

import StagingAudit.Proofs.Rule.Configuration

/-!
# Advice on tags

The rules on the tags advise a list of three. Two lists are in use. One starts with the tag of the
source directory, and a model that takes it is clean. The rule on the third tag has a list of its
own, which starts with the name of the directory as it is. This is what the rule on the first tag
wants only if the conventions map the name to itself: **that list is clean exactly in this case**,
or when no source directory is known (`advisedTags_clean_iff`). A mapped directory trades one
warning for another.
-/

namespace StagingAudit

/-- The rules on the tags of a call. -/
def RuleId.tagRules : List RuleId := [tagsMissing, tagsStaging, tagsThird, tagsSource]

namespace Model

/-- A model whose call, if there is one, declares other tags. -/
def withTags (m : Model) (tags : List String) : Model :=
  { m with config := m.config.map fun call => { call with tags } }

/-- The tags that the rule on the third tag advises: the name of the source directory, or the first
tag as it is, and the two that are agreed on. -/
def advisedTags (m : Model) : List String :=
  [(m.sourceName.or (m.config.bind (·.tags.head?))).getD "", m.conventions.requiredTag,
    m.conventions.thirdTag]

end Model

namespace RuleId

variable {id : RuleId} {m : Model} {call : ConfigCall}

/-- A rule on the tags is silent exactly when the call does not break it. -/
theorem check_eq_nil_iff (hid : id ∈ tagRules) (hcall : m.config = some call)
    (severity : Severity) :
    id.check severity m = [] ↔ ¬BrokenBy m.conventions m.sourceName call id := by
  -- such a rule does not ask where a call opens
  have hopen : id.check severity m = id.check severity { m with configLine := some call.line } := by
    cases id with
    | tagsMissing | tagsStaging | tagsThird | tagsSource => rfl
    | _ => exact absurd hid (by decide)
  have hfindings := @findings_check id { m with configLine := some call.line } call
    ((by decide : tagRules ⊆ callRules) hid) rfl hcall severity
  rw [findings, ← hopen] at hfindings
  rw [← List.map_eq_nil_iff (f := fun v => (v.code, v.line)), hfindings]
  split
  · next hbroken => exact iff_of_false (List.cons_ne_nil _ _) (not_not.2 hbroken)
  · next hbroken => exact iff_of_true rfl hbroken

/-- What the rules on the tags make of a model that declares other tags. -/
theorem check_withTags_eq_nil_iff (hid : id ∈ tagRules) (hcall : m.config = some call)
    (tags : List String) (severity : Severity) :
    id.check severity (m.withTags tags) = [] ↔
      ¬BrokenBy m.conventions m.sourceName { call with tags } id := by
  refine check_eq_nil_iff hid ?_ severity
  rw [Model.withTags, hcall]
  rfl

/-- The tags that a model should declare leave them silent. -/
theorem check_withTags_agreedTags (hid : id ∈ tagRules) (hcall : m.config = some call)
    (severity : Severity) : id.check severity (m.withTags m.agreedTags) = [] := by
  refine (check_withTags_eq_nil_iff hid hcall _ severity).2 fun hbroken =>
    not_brokenBy_agreedTags m call.line id ?_
  -- the materialization is none of their business
  cases id with
  | tagsMissing | tagsStaging | tagsThird | tagsSource => exact hbroken
  | _ => exact absurd hid (by decide)

/-- The tags that the rule on the third tag advises break the rule on the first one, where a source
directory goes by another tag, and no other rule. -/
theorem brokenBy_advisedTags_iff (hid : id ∈ tagRules) :
    BrokenBy m.conventions m.sourceName { call with tags := m.advisedTags } id ↔
      id = tagsSource ∧ ∃ directory ∈ m.sourceName, m.conventions.sourceTag directory ≠ directory := by
  cases id with
  | tagsMissing | tagsStaging | tagsThird => simp [BrokenBy, Model.advisedTags]
  | tagsSource =>
    cases hsource : m.sourceName with
    | none => simp [BrokenBy]
    | some directory => simp [BrokenBy, Model.advisedTags, hsource, eq_comm]
  | _ => exact absurd hid (by decide)

/-- What the rule on the third tag advises. -/
theorem remediation_of_mem_check {severity : Severity} {v : Violation}
    (h : v ∈ tagsThird.check severity m) :
    m.config.isSome ∧
      v.remediation = some ("Use " ++ quotedList m.advisedTags ++ " for consistency.") := by
  rw [check, checkTagsThird] at h
  split at h
  · cases h
  · next call hcall =>
    refine ⟨by rw [hcall]; rfl, ?_⟩
    dsimp only at h
    split at h
    · next tag tag' third tags htags =>
      split at h
      · cases h
      · obtain rfl := List.mem_singleton.1 h
        have hfirst : (m.sourceName.or (m.config.bind (·.tags.head?))).getD "" =
            m.sourceName.getD tag := by
          rw [hcall, Option.bind_some, htags]
          cases m.sourceName <;> rfl
        rw [Model.advisedTags, hfirst]
        rfl
    · cases h

end RuleId

/-- **The advice on the third tag.** Where the rule on it reports a model, its advice names a list of
three tags. With this list the rules on the tags are silent exactly when the conventions have no
tag for the source directory but its name, or when the directory is not known. -/
theorem advisedTags_clean_iff {m : Model} {severity : Severity} {v : Violation}
    (h : v ∈ RuleId.tagsThird.check severity m) :
    v.remediation = some ("Use " ++ quotedList m.advisedTags ++ " for consistency.") ∧
    ((∀ id ∈ [RuleId.tagsStaging, RuleId.tagsThird, RuleId.tagsSource], ∀ severity',
        id.check severity' (m.withTags m.advisedTags) = []) ↔
      ∀ directory ∈ m.sourceName, m.conventions.sourceTag directory = directory) := by
  obtain ⟨hcall, hadvice⟩ := RuleId.remediation_of_mem_check h
  obtain ⟨call, hcall⟩ := Option.isSome_iff_exists.1 hcall
  refine ⟨hadvice, ?_⟩
  have hsilent : ∀ id ∈ RuleId.tagRules, ∀ severity',
      id.check severity' (m.withTags m.advisedTags) = [] ↔
        (id = .tagsSource → ∀ directory ∈ m.sourceName,
          m.conventions.sourceTag directory = directory) := by
    intro id hid severity'
    rw [RuleId.check_withTags_eq_nil_iff hid hcall, RuleId.brokenBy_advisedTags_iff hid]
    simp only [ne_eq, not_and, not_exists, not_not]
  refine ⟨fun hall => ?_, fun hname id hid severity' => ?_⟩
  · exact (hsilent .tagsSource (by simp [RuleId.tagRules]) severity).1
      (hall .tagsSource (by simp) severity) rfl
  · exact (hsilent id (List.mem_cons_of_mem _ hid) severity').2 fun _ => hname

/-- A model in a source directory, with a first line that gives its tags. -/
def taggedModel (directory tags : String) (conventions : Conventions) : Model :=
  .ofText (.ofString ".") (.ofString ("models/operations/staging/" ++ directory ++ "/stg.sql"))
    ("\x7b\x7b config(tags=[" ++ tags ++ "]) \x7d\x7d\nselect 1\n").toList conventions

/-- In a directory that goes by its name the advice mends all there is. -/
theorem advisedTags_clean_oda :
    ∃ v ∈ RuleId.tagsThird.check .warning (taggedModel "oda" "'x', 'y', 'z'" {}),
      v.remediation = some "Use ['oda', 'staging', 'formentera'] for consistency." ∧
      ∀ id ∈ [RuleId.tagsStaging, RuleId.tagsThird, RuleId.tagsSource], ∀ severity,
        id.check severity ((taggedModel "oda" "'x', 'y', 'z'" {}).withTags
          ["oda", "staging", "formentera"]) = [] := by
  have hsource : (taggedModel "oda" "'x', 'y', 'z'" {}).sourceName = some "oda" := by decide +kernel
  have hadvised : (taggedModel "oda" "'x', 'y', 'z'" {}).advisedTags =
      ["oda", "staging", "formentera"] := by
    rw [Model.advisedTags, hsource]
    rfl
  obtain ⟨v, hv⟩ := List.exists_mem_of_ne_nil
    (RuleId.tagsThird.check .warning (taggedModel "oda" "'x', 'y', 'z'" {})) (by decide +kernel)
  obtain ⟨hadvice, hclean⟩ := advisedTags_clean_iff hv
  rw [hadvised] at hadvice hclean
  refine ⟨v, hv, hadvice.trans (by decide +kernel), hclean.2 ?_⟩
  rw [hsource]
  rintro _ ⟨⟩
  decide

/-- A model in a source directory that goes by the tag of an older one. -/
def mappedModel : Model :=
  taggedModel "prodview_v2" "'prodview', 'staging', 'acme'"
    { sourceTags := [("prodview_v2", "prodview")] }

/-- There the advice trades a warning for another: before, the first tag is right and the third is
not; with the advised tags it is the other way round. -/
theorem advisedTags_trade_warning :
    (RuleId.tagsThird.check .warning mappedModel).map (·.remediation) =
      [some "Use ['prodview_v2', 'staging', 'formentera'] for consistency."] ∧
    RuleId.tagsSource.check .warning mappedModel = [] ∧
    RuleId.tagsThird.check .warning
      (mappedModel.withTags ["prodview_v2", "staging", "formentera"]) = [] ∧
    (RuleId.tagsSource.check .warning
        (mappedModel.withTags ["prodview_v2", "staging", "formentera"])).map (·.message) =
      ["First tag is 'prodview_v2', expected 'prodview' based on directory."] := by
  decide +kernel

end StagingAudit

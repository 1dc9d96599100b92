import StagingAudit.Auditor
import StagingAudit.Proofs.Model.Rendering
import StagingAudit.Proofs.Rule.Blocks

/-!
# The verdict on a rendered model

A rendered model gives the rules on the configuration call, the markers, the columns and the
closing selection what they ask for, so all of them are silent. **What is reported depends on the
names of its blocks only** (`codes_auditText_modelText`): the structural codes, in the order of the
rules.
-/

namespace StagingAudit

/-- With every rule turned on and nothing said about any of them, the codes of a model are those of
the rules one after the other. -/
theorem codes_violations {a : Auditor} (hrules : a.rules = battery)
    (hsettings : a.settings.rules = []) (m : Model) :
    (a.violations m).map (·.code) =
      RuleId.all.flatMap fun id => (id.check id.defaultSeverity m).map (·.code) := by
  have henabled : ∀ name, a.settings.isEnabled name = true := by
    intro name
    rw [Settings.isEnabled, hsettings]
    rfl
  have hseverity : ∀ name, a.settings.severity? name = none := by
    intro name
    rw [Settings.severity?, hsettings]
    rfl
  rw [Auditor.violations, hrules, List.filter_eq_self.2 fun r _ => henabled r.id.name,
    List.map_flatMap, battery, List.flatMap_map]
  simp only [hseverity, Auditor.reweigh, Rule.check]

/-! ## Names in any case -/

/-- A name that is declared is that of a block, in some case. -/
theorem exists_of_mem_declaredNames {blocks : List PlainBlock} {name : String}
    (hname : ∀ c ∈ name.toList, c.toNat < 0x80) (h : name ∈ declaredNames blocks) :
    ∃ b ∈ blocks, Recogniser.SameLetters name.toList b.name := by
  obtain ⟨b, hb, rfl⟩ := List.mem_map.1 (List.mem_filter.1 h).1
  refine ⟨b, hb, Recogniser.sameLetters_of_lowerCase hname ?_⟩
  rw [lowerCase_of_ascii b.name_plain.isAscii, String.toList_ofList, sameAsciiCase,
    beq_self_eq_true]

/-! ## Silent rules

One lemma for each rule that stays silent. The rules on the call go by what it declares, which is
read back as it was written. The rules that look into a block look at a region, of which it is known
only that it starts with the body of a block of that name; where it ends does not matter, since what
they want is in the body already. -/

/-- A rendered model as it is read from a path. -/
def renderedModel (root path : Path) (conventions : Conventions) (source : String)
    (blocks : List PlainBlock) : Model :=
  .ofText root path (modelText conventions source blocks) conventions

section Rendered

variable {root path : Path} {conventions : Conventions} {source : String}
  {blocks : List PlainBlock}

theorem renderedModel_stripped : (renderedModel root path conventions source blocks).stripped =
    stripDirectives (modelText conventions source blocks) := by
  unfold renderedModel Model.ofText
  dsimp only

theorem renderedModel_configLine : (renderedModel root path conventions source blocks).configLine =
    configLine? (modelText conventions source blocks) :=
  Model.configLine_ofText ..

theorem renderedModel_config : (renderedModel root path conventions source blocks).config =
    ConfigCall.ofRaw? (modelText conventions source blocks) :=
  Model.config_ofText ..

/-- The blocks of a rendered model are those it was rendered from. -/
theorem blockNames_renderedModel (h : PlainConventions conventions source) :
    (renderedModel root path conventions source blocks).blockNames = declaredNames blocks :=
  map_name_findBlocks h blocks

/-- A required block of a rendered model was rendered into it. -/
theorem exists_of_block? (h : PlainConventions conventions source) {name : String}
    (hname : name ∈ requiredBlocks) {block : Block}
    (hblock : (renderedModel root path conventions source blocks).block? name = some block) :
    ∃ b ∈ blocks, Recogniser.SameLetters name.toList b.name := by
  have hhas : (renderedModel root path conventions source blocks).hasBlock name = true := by
    rw [Model.hasBlock, hblock]
    rfl
  have hmem := (hasBlock_iff (map_toLower_of_required hname)).1 hhas
  rw [← renderedModel, blockNames_renderedModel h] at hmem
  exact exists_of_mem_declaredNames (isPlainName_of_required hname).isAscii hmem

/-- The configuration call of a rendered model is the one that was written. -/
theorem config_renderedModel (h : PlainConventions conventions source) :
    (renderedModel root path conventions source blocks).config =
      some ⟨1, some conventions.materialization, modelTags conventions source⟩ := by
  have htags : ∀ t ∈ modelTags conventions source, IsPlainTag t :=
    fun t ht c hc => isTagChar_of_isWord ((h.tags t ht).isWord c hc)
  rw [renderedModel_config, modelText, ofRaw?_configText h.materialization htags]

namespace RuleId

variable (severity : Severity)

theorem checkConfigBlock_rendered :
    checkConfigBlock severity (renderedModel root path conventions source blocks) = [] := by
  rw [checkConfigBlock, renderedModel_configLine, modelText, configLine?_configText]

theorem checkMaterializedView_rendered (h : PlainConventions conventions source) :
    checkMaterializedView severity (renderedModel root path conventions source blocks) = [] := by
  rw [checkMaterializedView, config_renderedModel h]
  exact if_pos rfl

theorem checkTagsMissing_rendered (h : PlainConventions conventions source) :
    checkTagsMissing severity (renderedModel root path conventions source blocks) = [] := by
  rw [checkTagsMissing, config_renderedModel h]
  rfl

theorem checkTagsStaging_rendered (h : PlainConventions conventions source) :
    checkTagsStaging severity (renderedModel root path conventions source blocks) = [] := by
  rw [checkTagsStaging, config_renderedModel h]
  refine if_pos (.inr ?_)
  show conventions.requiredTag ∈ modelTags conventions source
  simp [modelTags]

theorem checkTagsThird_rendered (h : PlainConventions conventions source) :
    checkTagsThird severity (renderedModel root path conventions source blocks) = [] := by
  rw [checkTagsThird, config_renderedModel h]
  exact if_pos rfl

/-- The first tag is right if it is the one that the directory wants, when it wants one. -/
theorem checkTagsSource_rendered (h : PlainConventions conventions source)
    (hsource : ∀ tag, (renderedModel root path conventions source blocks).expectedSourceTag =
      some tag → tag = source) :
    checkTagsSource severity (renderedModel root path conventions source blocks) = [] := by
  rw [checkTagsSource, config_renderedModel h]
  cases hexpected : (renderedModel root path conventions source blocks).expectedSourceTag with
  | none => rfl
  | some tag =>
    rw [hsource tag hexpected]
    exact if_pos rfl

/-- The region of an enhanced block has the block's own markers. -/
theorem exists_enhancedRegion (h : PlainConventions conventions source) {block : Block}
    (hblock : (renderedModel root path conventions source blocks).block? "enhanced" =
      some block) :
    ∃ b : PlainBlock, sameAsciiCase b.name "enhanced".toList = true ∧ ∃ more,
      enhancedRegion (renderedModel root path conventions source blocks) = b.body ++ more := by
  have hname : IsPlainName "enhanced".toList := isPlainName_of_required (by decide)
  obtain ⟨b, -, hsame, more, hregion⟩ := exists_isolate?_raw h hname
    (exists_of_block? h (by decide) hblock)
  refine ⟨b, sameAsciiCase_of_sameLetters hname.isAscii b.name_plain.isAscii hsame, more, ?_⟩
  show (isolate? "enhanced".toList (modelText conventions source blocks)).getD [] = b.body ++ more
  rw [hregion, Option.getD_some]

/-- A word that ends in `_sk` is a surrogate key. -/
theorem surrogateMarker_append {c : Char} (hc : isWord c = false) (cs : List Char) :
    surrogateMarker ("_sk".toList ++ c :: cs) = some (c :: cs) := by
  have hother : Recogniser.folded "surrogate_key".toList ("_sk".toList ++ c :: cs) = none := rfl
  have hfolded : Recogniser.folded ['_', 's', 'k'] ("_sk".toList ++ c :: cs) = some (c :: cs) := rfl
  rw [surrogateMarker, hother, hfolded]
  exact if_neg (by simp [hc])

theorem checkSurrogateKey_rendered (h : PlainConventions conventions source) :
    checkSurrogateKey severity (renderedModel root path conventions source blocks) = [] := by
  unfold checkSurrogateKey
  cases hblock : (renderedModel root path conventions source blocks).block? "enhanced" with
  | none => rfl
  | some block =>
    obtain ⟨b, hnamed, more, hregion⟩ := exists_enhancedRegion h hblock
    -- what the block was rendered with is enough, whatever stands behind its body
    obtain ⟨-, c, -, hc, before, after, hbody⟩ := b.enhanced_marked hnamed
    have htext : b.body ++ more = before ++ ("_sk".toList ++ c :: (after ++ more)) := by
      rw [← hbody]
      simp only [List.append_assoc, List.cons_append, List.nil_append]
    apply if_pos
    rw [hregion, htext]
    apply occurs_append
    rw [surrogateMarker_append hc]
    rfl

theorem checkLoadedAt_rendered (h : PlainConventions conventions source) :
    checkLoadedAt severity (renderedModel root path conventions source blocks) = [] := by
  unfold checkLoadedAt
  cases hblock : (renderedModel root path conventions source blocks).block? "enhanced" with
  | none => rfl
  | some block =>
    obtain ⟨b, hnamed, more, hregion⟩ := exists_enhancedRegion h hblock
    obtain ⟨⟨before, after, hbody⟩, -⟩ := b.enhanced_marked hnamed
    have htext : b.body ++ more = before ++ ("_loaded_at".toList ++ (after ++ more)) := by
      rw [← hbody]
      simp only [List.append_assoc]
    apply if_pos
    rw [hregion, htext]
    apply occurs_append
    rw [Recogniser.literal_eq_some_iff.2 rfl]
    rfl

/-- The columns of the final block. -/
theorem selectList_columns (more : List Char) :
    selectList ("\n  select a, b from x\n".toList ++ more) = some ['a', ',', ' ', 'b'] := rfl

theorem checkFinalExplicitColumns_rendered (h : PlainConventions conventions source) :
    checkFinalExplicitColumns severity (renderedModel root path conventions source blocks) =
      [] := by
  unfold checkFinalExplicitColumns
  cases hblock : (renderedModel root path conventions source blocks).block? "final" with
  | none => rfl
  | some block =>
    have hname : IsPlainName "final".toList := isPlainName_of_required (by decide)
    obtain ⟨b, -, hsame, more, hregion⟩ := exists_isolate?_stripped h hname
      (exists_of_block? h (by decide) hblock)
    have hnamed := sameAsciiCase_of_sameLetters hname.isAscii b.name_plain.isAscii hsame
    apply if_pos
    show ((isolate? "final".toList (stripDirectives (modelText conventions source blocks))).bind
      selectList).any isExplicit = true
    rw [hregion, b.final_columns hnamed, Option.bind_some, selectList_columns]
    rfl

/-- The heading of a rendered model has two groups. -/
theorem two_le_groupCount (a b : List Char) : 2 ≤ groupCount (a ++ heading ++ b) := by
  have hidentifiers : occurs (groupComment "identifiers") (a ++ heading ++ b) = true := by
    have hsplit : heading = ['\n'] ++ "-- identifiers\n-- dates\nwith ".toList := by decide +kernel
    rw [hsplit, ← List.append_assoc, List.append_assoc]
    exact occurs_append rfl
  have hdates : occurs (groupComment "dates") (a ++ heading ++ b) = true := by
    have hsplit : heading = "\n-- identifiers\n".toList ++ "-- dates\nwith ".toList := by
      decide +kernel
    rw [hsplit, ← List.append_assoc, List.append_assoc]
    exact occurs_append rfl
  rw [groupCount, groupComments, List.countP_cons, List.countP_cons, if_pos hidentifiers,
    if_pos hdates]
  omega

theorem checkColumnGrouping_rendered (h : PlainConventions conventions source) :
    checkColumnGrouping severity (renderedModel root path conventions source blocks) = [] := by
  have hgroups : 2 ≤ groupCount (renderedModel root path conventions source blocks).stripped := by
    rw [renderedModel_stripped, stripDirectives_modelText h]
    exact two_le_groupCount _ _
  unfold checkColumnGrouping
  split
  · rfl
  · exact if_pos hgroups

/-- A rendered model ends with the closing selection. -/
theorem exists_afterHeading (blocks : List PlainBlock) :
    ∃ before, afterHeading blocks = before ++ closing := by
  induction blocks with
  | nil => exact ⟨[], rfl⟩
  | cons b bs ih =>
    obtain ⟨before, hbefore⟩ := ih
    refine ⟨b.name ++ (PlainBlock.opening ++ (b.body ++ separator bs ++ before)), ?_⟩
    rw [afterHeading, hbefore]
    simp only [List.append_assoc]

theorem checkFinalSelect_rendered (h : PlainConventions conventions source) :
    checkFinalSelect severity (renderedModel root path conventions source blocks) = [] := by
  have hselection : (scan? plainSelection none
      (renderedModel root path conventions source blocks).stripped).isSome = true := by
    obtain ⟨before, hbefore⟩ := exists_afterHeading blocks
    -- the selection starts a line, so the character before it is a line break
    have htext : ∀ a, a ++ (before ++ closing) =
        (a ++ before ++ ['\n'] ++ ['\n']) ++ "select * from final\n".toList := by
      intro a
      simp only [List.append_assoc]
      rfl
    rw [renderedModel_stripped, stripDirectives_modelText h, hbefore, htext]
    apply isSome_scan?_append
    rw [lastChar_concat]
    decide
  unfold checkFinalSelect
  rw [hselection, Bool.or_true]
  rfl

end RuleId

end Rendered

/-! ## The verdict -/

/-- **The verdict on a rendered model.** Let every rule take part and nothing be said about any of
them, and let a model be rendered with the conventions in force, at a path that is not excluded,
with the first tag that the path wants, if it wants one. Then what is reported are the structural
codes of its declared names and nothing else. -/
theorem codes_auditText_modelText (a : Auditor) (path : Path) (source : String)
    (blocks : List PlainBlock) (hrules : a.rules = battery) (hsettings : a.settings.rules = [])
    (hpath : a.excludedBy? path = none)
    (hplain : PlainConventions a.settings.conventions source)
    (hsource : ∀ tag, (sourceNameOf? ((Path.below? a.root path).getD path)
      a.settings.conventions.anchorDir).map a.settings.conventions.sourceTag = some tag →
        tag = source) :
    (a.auditText path (modelText a.settings.conventions source blocks)).violations.map (·.code) =
      structuralCodes (declaredNames blocks) := by
  have hreport : (a.auditText path (modelText a.settings.conventions source blocks)).violations =
      a.violations (renderedModel a.root path a.settings.conventions source blocks) := by
    rw [Auditor.auditText, hpath]
    rfl
  have hstructure : ((RuleId.checkBlockPresence .error
      (renderedModel a.root path a.settings.conventions source blocks)).map (·.code)) ++
      (RuleId.checkBlockOrder .error
        (renderedModel a.root path a.settings.conventions source blocks)).map (·.code) =
        structuralCodes (declaredNames blocks) := by
    rw [← @blockNames_renderedModel a.root path _ _ blocks hplain]
    exact RuleId.codes_structure .error .error
  -- every other rule is silent
  rw [hreport, codes_violations hrules hsettings, ← hstructure]
  simp only [RuleId.all, List.flatMap_cons, List.flatMap_nil, RuleId.check, RuleId.defaultSeverity,
    RuleId.checkConfigBlock_rendered, RuleId.checkMaterializedView_rendered _ hplain,
    RuleId.checkTagsMissing_rendered _ hplain, RuleId.checkTagsStaging_rendered _ hplain,
    RuleId.checkTagsThird_rendered _ hplain, RuleId.checkTagsSource_rendered _ hplain hsource,
    RuleId.checkSurrogateKey_rendered _ hplain, RuleId.checkLoadedAt_rendered _ hplain,
    RuleId.checkFinalExplicitColumns_rendered _ hplain,
    RuleId.checkColumnGrouping_rendered _ hplain, RuleId.checkFinalSelect_rendered _ hplain,
    List.map_nil, List.nil_append, List.append_nil]

/-- Blocks in several cases, with a reserved word among them, two missing and two exchanged. -/
def mixedBlocks : List PlainBlock :=
  [{ name := "ENHANCED".toList, body := "select id_sk, t as _loaded_at from source".toList,
      name_plain := ⟨⟨by decide, by decide⟩, by decide⟩, body_plain := by decide,
      enhanced_marked := by decide, final_columns := by decide },
    { name := "select".toList, body := [],
      name_plain := ⟨⟨by decide, by decide⟩, by decide⟩, body_plain := by decide,
      enhanced_marked := by decide, final_columns := by decide },
    { name := "source".toList, body := "select * from raw".toList,
      name_plain := ⟨⟨by decide, by decide⟩, by decide⟩, body_plain := by decide,
      enhanced_marked := by decide, final_columns := by decide },
    { name := "Final".toList, body := "\n  select a, b from x\n".toList,
      name_plain := ⟨⟨by decide, by decide⟩, by decide⟩, body_plain := by decide,
      enhanced_marked := by decide, final_columns := by decide }]

/-- An auditor with every rule and the usual settings. -/
def plainAuditor : Auditor :=
  { root := .ofString "/repo", rules := battery, exclude := ["wiserock_tables"], settings := {} }

/-- A model below a source directory. -/
def wellsPath : Path := .ofString "/repo/models/staging/oda/stg_oda__wells.sql"

/-- The verdict on blocks that are missing and out of order. -/
theorem codes_auditText_mixedBlocks :
    (plainAuditor.auditText wellsPath (modelText {} "oda" mixedBlocks)).violations.map (·.code) =
      ["CTE_MISSING_RENAMED", "CTE_MISSING_FILTERED", "CTE_ORDER"] := by
  have hplain : PlainConventions {} "oda" := by
    refine ⟨⟨⟨by decide, by decide⟩, by decide⟩, fun t ht => ?_⟩
    have hall : ∀ t ∈ modelTags {} "oda", t.toList ≠ [] ∧ (∀ c ∈ t.toList, isWord c = true) ∧
      ∀ c ∈ t.toList, c.toNat < 0x80 := by decide
    obtain ⟨hne, hword, hascii⟩ := hall t ht
    exact ⟨⟨hne, hword⟩, hascii⟩
  have hpath : plainAuditor.excludedBy? wellsPath = none := by decide +kernel
  have hexpected : (sourceNameOf? ((Path.below? plainAuditor.root wellsPath).getD wellsPath)
      plainAuditor.settings.conventions.anchorDir).map
        plainAuditor.settings.conventions.sourceTag = some "oda" := by decide +kernel
  have hcodes := codes_auditText_modelText plainAuditor wellsPath "oda" mixedBlocks rfl rfl hpath
    hplain fun tag htag => (Option.some.inj (hexpected.symm.trans htag)).symm
  refine hcodes.trans ?_
  decide +kernel

end StagingAudit

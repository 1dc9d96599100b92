import StagingAudit.Auditor
import StagingAudit.Proofs.ConfigCall.Opening
import StagingAudit.Proofs.Region.Boundary
import StagingAudit.Proofs.Rule.Order

/-!
# Where violations are

A violation may carry a line. The rules on the configuration call take it from the call, which is
read from the raw text; the rules on blocks take it from a block, which is found in the stripped
text with the leading keyword blanked. Neither is read off the raw text by the rule itself, but
both lines are true of it: **at a byte offset on the line stands what the rule is about**
(`violation_line_located`), the first opening of the call or the name of the one block that the rule
judges.
-/

namespace StagingAudit

/-! ## Names in the raw text -/

/-- A part without blank characters stands in the raw text where it stands in its mask. -/
theorem HoldsAt.of_masks {raw out before part after : List Char} (h : Masks raw out)
    (hout : out = before ++ (part ++ after)) (hne : part ≠ [])
    (hpart : ∀ c ∈ part, isBlank c = false) :
    HoldsAt (· = part) raw (byteLength before) := by
  subst hout
  obtain ⟨before', after', rfl, hbefore, -⟩ := h.split_around hne hpart
  exact ⟨before', part, after', rfl, hbefore.byteLength_eq.symm, rfl⟩

/-- The required names have no `k` in them, so nothing beyond ASCII is lower-cased to one. -/
theorem sameAsciiCase_of_required {name : String} (hname : name ∈ requiredBlocks) {word : List Char}
    (h : sameAsciiCase (lowerCase word) name.toList = true) :
    sameAsciiCase word name.toList = true := by
  have hk : ∀ n ∈ requiredBlocks, ∀ c ∈ n.toList, c.toLower ≠ 'k' := by decide
  exact Recogniser.sameAsciiCase_of_lowerCase (isPlainName_of_required hname).isAscii
    (hk name hname) h

/-- A block of the stripped text that goes by a required name has that name in the raw text, on the
line of the block. -/
theorem exists_of_mem_findBlocks {raw : List Char} {block : Block} {name : String}
    (hmem : block ∈ findBlocks (stripDirectives raw)) (hname : name ∈ requiredBlocks)
    (hnamed : block.isNamed name = true) :
    ∃ offset, lineAt raw offset = block.line ∧
      HoldsAt (fun part => sameAsciiCase part name.toList = true) raw offset := by
  have hmask := masks_stripDirectives raw
  rw [findBlocks_eq_map] at hmem
  obtain ⟨i, hi, rfl⟩ := List.mem_map.1 hmem
  obtain ⟨before, opening, after, htext, hoffset, -, hword, -⟩ :=
    exists_of_mem_blockIntroductions hi
  rw [List.append_assoc] at htext
  obtain ⟨before', _, after', rfl, hlen, rfl⟩ := HoldsAt.of_masks hmask htext hword.ne_nil
    fun c hc => isBlank_of_isWord (hword.isWord c hc)
  refine ⟨i.offset, (hmask.lineAt_eq i.offset).symm, before', i.word, after', rfl, ?_, ?_⟩
  · rw [hlen, hoffset]
  · rw [Introduction.toBlock, Block.isNamed, String.toList_ofList] at hnamed
    exact sameAsciiCase_of_required hname hnamed

/-! ## What the rules are about

A rule that gives a line takes it from the configuration call or from one block. Which block that is
depends on the rule, and `IsAbout` says it for each of them, without the way in which the rule comes
to it: for the rule on order by the longest common prefix, for the others by the first block of a
name. The lines are dealt with after this once and for all, whatever the block is. -/

namespace RuleId

/-- Whether a rule asks what the configuration call declares. -/
def readsCall : RuleId → Bool
  | materializedView | tagsMissing | tagsStaging | tagsThird | tagsSource => true
  | _ => false

/-- The codes of what a rule finds. The rule on missing blocks has one for each of them. -/
def codes : RuleId → List String
  | blockPresence => blockPresence.code :: requiredBlocks.map missingCode
  | id => [id.code]

theorem code_mem_codes (id : RuleId) : id.code ∈ id.codes := by
  cases id <;> exact .head _

/-- The block at which the required names leave the canonical order: the one behind the longest
prefix that they share with the names that they should be. -/
def IsMisplaced (blocks : List Block) (block : Block) : Prop :=
  let required := blocks.filter fun b => requiredBlocks.contains b.name
  let canonical := requiredBlocks.filter fun name => blocks.any (·.isNamed name)
  ∃ p, IsLongestCommonPrefix p (required.map (·.name)) canonical ∧
    required[p.length]? = some block

/-- The block that a rule is about when it gives a line, and the required name that it goes by. -/
inductive IsAbout (blocks : List Block) : RuleId → Block → String → Prop where
  /-- the rule on order is about the misplaced block -/
  | misplaced {block : Block} (misplaced : IsMisplaced blocks block) :
      IsAbout blocks blockOrder block block.name
  /-- the rules on markers are about the first `enhanced` block -/
  | enhanced {id : RuleId} {block : Block} (asks : id = surrogateKey ∨ id = loadedAt)
      (first : blocks.find? (·.isNamed "enhanced") = some block) :
      IsAbout blocks id block "enhanced"
  /-- the rule on the columns of the model is about the first `final` block -/
  | final {block : Block} (first : blocks.find? (·.isNamed "final") = some block) :
      IsAbout blocks finalExplicitColumns block "final"
  /-- the rule on groups of columns is about the first `renamed` block -/
  | renamed {block : Block} (first : blocks.find? (·.isNamed "renamed") = some block) :
      IsAbout blocks columnGrouping block "renamed"
  /-- or, in a model without one, about the first `final` block -/
  | unrenamed {block : Block} (none : blocks.find? (·.isNamed "renamed") = none)
      (first : blocks.find? (·.isNamed "final") = some block) :
      IsAbout blocks columnGrouping block "final"

section IsAbout

variable {blocks : List Block} {id : RuleId} {block : Block} {name : String}

/-- A misplaced block is one of those with a required name. -/
theorem IsMisplaced.mem_filter (h : IsMisplaced blocks block) :
    block ∈ blocks ∧ block.name ∈ requiredBlocks := by
  obtain ⟨p, -, hnext⟩ := h
  obtain ⟨hmem, hrequired⟩ := List.mem_filter.1 (List.mem_of_getElem? hnext)
  exact ⟨hmem, List.contains_iff_mem.1 hrequired⟩

/-- Rules are about blocks of the text, under required names that these go by. -/
theorem IsAbout.isNamed (h : IsAbout blocks id block name) :
    block ∈ blocks ∧ name ∈ requiredBlocks ∧ block.isNamed name = true := by
  cases h with
  | misplaced hmisplaced =>
    obtain ⟨hmem, hrequired⟩ := hmisplaced.mem_filter
    exact ⟨hmem, hrequired, by rw [Block.isNamed, sameAsciiCase, beq_self_eq_true]⟩
  | enhanced _ hfirst | final hfirst | renamed hfirst | unrenamed _ hfirst =>
    exact ⟨List.mem_of_find?_eq_some hfirst, by decide, by simpa using List.find?_some hfirst⟩

end IsAbout

/-- Where a rule can take a line from: the configuration call, or the block that it is about. -/
inductive LineOf (id : RuleId) (m : Model) : Nat → Prop where
  /-- the line of the configuration call -/
  | call {call : ConfigCall} (reads : id.readsCall = true) (config : m.config = some call) :
      LineOf id m call.line
  /-- the line of the block -/
  | block {block : Block} {name : String} (about : IsAbout m.blocks id block name) :
      LineOf id m block.line

/-- What is found under the name and a code of a rule, with lines that the rule may take. -/
def Located (id : RuleId) (m : Model) (vs : List Violation) : Prop :=
  ∀ v ∈ vs, v.rule = id.name ∧ v.code ∈ id.codes ∧ ∀ line, v.line = some line → id.LineOf m line

variable {id : RuleId} {m : Model} {severity : Severity}

theorem located_nil : id.Located m [] := by
  intro v hv
  cases hv

theorem located_unless {p : Prop} [Decidable p] {vs : List Violation} (h : id.Located m vs) :
    id.Located m (if p then [] else vs) := by
  split
  · exact located_nil
  · exact h

theorem located_violation {message remediation : String} {line : Option Nat}
    (h : ∀ n, line = some n → id.LineOf m n) :
    id.Located m [id.violation severity message line remediation] := by
  intro v hv
  obtain rfl := List.mem_singleton.1 hv
  exact ⟨rfl, id.code_mem_codes, h⟩

/-- A violation that points at the configuration call. -/
theorem located_at_call {message remediation : String} {call : ConfigCall}
    (hreads : id.readsCall = true) (hconfig : m.config = some call) :
    id.Located m [id.violation severity message (some call.line) remediation] := by
  apply located_violation
  intro n hn
  cases hn
  exact .call hreads hconfig

/-- A violation that points at the block that the rule is about. -/
theorem located_at_block {message remediation name : String} {block : Block}
    (h : IsAbout m.blocks id block name) :
    id.Located m [id.violation severity message (some block.line) remediation] := by
  apply located_violation
  intro n hn
  cases hn
  exact .block h

/-- The block that the walk along the names stops at is misplaced. -/
theorem isMisplaced_of_firstMisplaced? {block : Block}
    (h : firstMisplaced? (m.blocks.filter fun b => requiredBlocks.contains b.name)
      (requiredBlocks.filter m.hasBlock) = some block) : IsMisplaced m.blocks block := by
  have hcanonical : requiredBlocks.filter m.hasBlock =
      requiredBlocks.filter fun name => m.blocks.any (·.isNamed name) :=
    List.filter_congr fun name _ => List.isSome_find?
  obtain ⟨p, hp, hfound⟩ := exists_firstMisplaced?_eq
    (m.blocks.filter fun b => requiredBlocks.contains b.name) (requiredBlocks.filter m.hasBlock)
  rw [hcanonical] at hp
  exact ⟨p, hp, hfound.symm.trans h⟩

/-- Every rule takes its lines from what it is about. -/
theorem located_check (id : RuleId) (severity : Severity) (m : Model) :
    id.Located m (id.check severity m) := by
  cases id with
  | configBlock =>
    rw [check, checkConfigBlock]
    split
    · exact located_nil
    · exact located_violation fun n hn => by cases hn
  | materializedView =>
    rw [check, checkMaterializedView]
    split
    · exact located_nil
    · next hconfig => exact located_unless (located_at_call rfl hconfig)
  | tagsMissing =>
    rw [check, checkTagsMissing]
    split
    · exact located_nil
    · next hconfig =>
      split
      · exact located_nil
      · exact located_at_call rfl hconfig
  | tagsStaging =>
    rw [check, checkTagsStaging]
    split
    · exact located_nil
    · next hconfig => exact located_unless (located_at_call rfl hconfig)
  | tagsThird =>
    rw [check, checkTagsThird]
    split
    · exact located_nil
    · next hconfig =>
      dsimp only
      split
      · exact located_unless (located_at_call rfl hconfig)
      · exact located_nil
  | tagsSource =>
    rw [check, checkTagsSource]
    split
    · exact located_nil
    · next hconfig =>
      split
      · exact located_unless (located_at_call rfl hconfig)
      · exact located_nil
  | blockPresence =>
    rw [check, checkBlockPresence]
    split
    · exact located_violation fun n hn => by cases hn
    · intro v hv
      obtain ⟨name, hname, rfl⟩ := List.mem_map.1 hv
      have hcode : missingCode name ∈ requiredBlocks.map missingCode :=
        List.mem_map_of_mem (List.mem_filter.1 hname).1
      exact ⟨rfl, .tail _ hcode, fun n hn => by cases hn⟩
  | blockOrder =>
    rw [check, checkBlockOrder]
    refine located_unless (located_violation fun n hn => ?_)
    obtain ⟨block, hblock, rfl⟩ := Option.map_eq_some_iff.1 hn
    exact .block (.misplaced (isMisplaced_of_firstMisplaced? hblock))
  | surrogateKey =>
    rw [check, checkSurrogateKey]
    split
    · exact located_nil
    · next hblock => exact located_unless (located_at_block (.enhanced (.inl rfl) hblock))
  | loadedAt =>
    rw [check, checkLoadedAt]
    split
    · exact located_nil
    · next hblock => exact located_unless (located_at_block (.enhanced (.inr rfl) hblock))
  | finalExplicitColumns =>
    rw [check, checkFinalExplicitColumns]
    split
    · exact located_nil
    · next hblock => exact located_unless (located_at_block (.final hblock))
  | columnGrouping =>
    rw [check, checkColumnGrouping]
    split
    · exact located_nil
    · next hblock =>
      rcases Option.or_eq_some_iff.1 hblock with hrenamed | ⟨hnone, hfinal⟩
      · exact located_unless (located_at_block (.renamed hrenamed))
      · exact located_unless (located_at_block (.unrenamed hnone hfinal))
  | finalSelect =>
    rw [check, checkFinalSelect]
    exact located_unless (located_violation fun n hn => by cases hn)

end RuleId

/-! ## Reports -/

/-- A change of severity leaves a violation under its rule and its code, and on its line. -/
theorem exists_of_mem_reweigh {severity : Option Severity} {vs : List Violation} {v : Violation}
    (h : v ∈ Auditor.reweigh severity vs) :
    ∃ w ∈ vs, w.rule = v.rule ∧ w.code = v.code ∧ w.line = v.line := by
  cases severity with
  | none => exact ⟨v, h, rfl, rfl, rfl⟩
  | some s =>
    obtain ⟨w, hw, rfl⟩ := List.mem_map.1 h
    exact ⟨w, hw, rfl, rfl, rfl⟩

/-- What an auditor reports is located in the model that it has read. -/
theorem exists_of_mem_auditText {a : Auditor} {path : Path} {text : List Char} {v : Violation}
    (h : v ∈ (a.auditText path text).violations) :
    ∃ id : RuleId, v.rule = id.name ∧ v.code ∈ id.codes ∧ ∀ line, v.line = some line →
      id.LineOf (Model.ofText a.root path text a.settings.conventions) line := by
  unfold Auditor.auditText at h
  split at h
  · cases h
  · obtain ⟨r, -, hr⟩ := List.mem_flatMap.1 h
    obtain ⟨w, hw, hrule, hcode, hline⟩ := exists_of_mem_reweigh hr
    obtain ⟨hname, hcodes, hlocated⟩ := r.id.located_check r.severity _ w hw
    refine ⟨r.id, by rw [← hrule, hname], by rwa [← hcode], fun line hv => ?_⟩
    exact hlocated line (by rw [hline, hv])

/-- There are no more line feeds before an offset than in the text. -/
theorem newlinesBefore_le (text : List Char) (offset : Nat) :
    newlinesBefore text offset ≤ text.count '\n' := by
  fun_induction newlinesBefore text offset with
  | case1 => simp
  | case2 => simp
  | case3 c cs n ih =>
    rw [List.count_cons]
    simp only [beq_iff_eq]
    omega

/-- At a byte offset of a text stands what a rule is about: for the rules that read the
configuration call the first opening of a call, for the rules on blocks the required name of the
block that they are about, in any ASCII case, on the line of that block. -/
def RuleId.PointsAt (id : RuleId) (text : List Char) (offset : Nat) : Prop :=
  (id.readsCall = true ∧ HoldsAt OpensConfig text offset ∧
    ∀ other, HoldsAt OpensConfig text other → offset ≤ other) ∨
  ∃ block name, RuleId.IsAbout (findBlocks (stripDirectives text)) id block name ∧
    lineAt text offset = block.line ∧
    HoldsAt (fun part => sameAsciiCase part name.toList = true) text offset

/-- A line that a rule takes from a model is that of an offset the rule points at. -/
theorem RuleId.LineOf.exists_pointsAt {id : RuleId} {root path : Path} {text : List Char}
    {conventions : Conventions} {line : Nat}
    (h : id.LineOf (Model.ofText root path text conventions) line) :
    ∃ offset, lineAt text offset = line ∧ id.PointsAt text offset := by
  cases h with
  | @call call hreads hconfig =>
    have hcall : configLine? text = some call.line := by
      obtain ⟨n, hn, hrest⟩ := Option.bind_eq_some_iff.1 hconfig
      obtain ⟨arguments, -, hpure⟩ := Option.bind_eq_some_iff.1 hrest
      cases hpure
      exact hn
    obtain ⟨offset, hat, hholds, hfirst⟩ := exists_of_configLine? hcall
    exact ⟨offset, hat, .inl ⟨hreads, hholds, hfirst⟩⟩
  | @block block name habout =>
    obtain ⟨hmem, hrequired, hnamed⟩ := habout.isNamed
    obtain ⟨offset, hat, hholds⟩ := exists_of_mem_findBlocks hmem hrequired hnamed
    exact ⟨offset, hat, .inr ⟨block, name, habout, hat, hholds⟩⟩

/-- **Lines are true of the raw text.** Whatever the path, the text, the root, the rules and the
settings: a violation with a line has one of the text's lines, and at some byte offset on that line
the raw text holds what the rule is about. -/
theorem violation_line_located (a : Auditor) (path : Path) (text : List Char) (v : Violation)
    (line : Nat) (hv : v ∈ (a.auditText path text).violations) (hline : v.line = some line) :
    1 ≤ line ∧ line ≤ 1 + text.count '\n' ∧
    ∃ offset, ((encode text).take offset).count 0x0A = line - 1 ∧
      ∃ id : RuleId, v.rule = id.name ∧ id.PointsAt text offset := by
  obtain ⟨id, hrule, -, hlocated⟩ := exists_of_mem_auditText hv
  obtain ⟨offset, rfl, hpoints⟩ := (hlocated line hline).exists_pointsAt
  have hle := newlinesBefore_le text offset
  refine ⟨?_, ?_, offset, ?_, id, hrule, hpoints⟩
  · simp [lineAt]
  · rw [lineAt]
    omega
  · rw [lineAt_eq_count, Nat.add_sub_cancel]

/-- A model whose directives hold line breaks and blocks of their own, with the required blocks in
the wrong order and no tags. -/
def shiftedModel : List Char :=
  ("\x7b% set rows = [\n  1\n] %\x7d\n\x7b# final as ( #\x7d \x7b\x7b\n  config()\n\x7d\x7d\n" ++
    "WITH Final AS (\n  select 1\n),\nsource as (\n  select 2\n)\n").toList

/-- An auditor with every rule and no settings. -/
def bareAuditor : Auditor :=
  { root := .ofString "/p", rules := battery, exclude := [], settings := {} }

/-- The order of the blocks is reported where the first one stands, and the missing tags where the
call opens. -/
theorem shiftedModel_lines_located :
    (∃ v ∈ (bareAuditor.auditText (.ofString "m.sql") shiftedModel).violations,
      v.line = some 7 ∧ v.rule = "cte-order" ∧
      1 ≤ 7 ∧ 7 ≤ 1 + shiftedModel.count '\n' ∧
      ∃ offset, ((encode shiftedModel).take offset).count 0x0A = 7 - 1 ∧
        ∃ id : RuleId, v.rule = id.name ∧ id.PointsAt shiftedModel offset) ∧
    ∃ v ∈ (bareAuditor.auditText (.ofString "m.sql") shiftedModel).violations,
      v.line = some 4 ∧ v.rule = "tags-missing" ∧
      1 ≤ 4 ∧ 4 ≤ 1 + shiftedModel.count '\n' ∧
      ∃ offset, ((encode shiftedModel).take offset).count 0x0A = 4 - 1 ∧
        ∃ id : RuleId, v.rule = id.name ∧ id.PointsAt shiftedModel offset := by
  have horder : ∃ v ∈ (bareAuditor.auditText (.ofString "m.sql") shiftedModel).violations,
      v.line = some 7 ∧ v.rule = "cte-order" := by decide +kernel
  have htags : ∃ v ∈ (bareAuditor.auditText (.ofString "m.sql") shiftedModel).violations,
      v.line = some 4 ∧ v.rule = "tags-missing" := by decide +kernel
  obtain ⟨v, hv, hline, hrule⟩ := horder
  obtain ⟨w, hw, hline', hrule'⟩ := htags
  exact ⟨⟨v, hv, hline, hrule, violation_line_located _ _ _ v 7 hv hline⟩,
    w, hw, hline', hrule', violation_line_located _ _ _ w 4 hw hline'⟩

end StagingAudit

import StagingAudit.Auditor
import StagingAudit.Proofs.ConfigCall.Spelling

/-!
# Rules and spellings

`Model.respell` writes the two texts of a model in another spelling and leaves everything that was
read off them. Rules on blocks look at these texts for markers, comments and selections, in any
case, so **they find the same in a model that is respelled** (`check_respell`); only the name of the
load timestamp is looked for as it is written, and that does not depend on how lines end
(`check_respell_crlf`).

With what the stages of reading keep this says two things about whole texts. Rules on blocks do not
see the case of a text (`check_eq_of_sameAsciiCase`), and no rule sees whether lines end in one
character or two (`auditText_crlf`).
-/

namespace StagingAudit

namespace Model

/-- The model with its texts in a spelling, and what was read off them as it is. -/
def respell (m : Model) (s : Spelling) : Model :=
  { m with raw := s.write m.raw, stripped := s.write m.stripped }

/-- The model with another configuration call. -/
def withCall (m : Model) (line : Option Nat) (call : Option ConfigCall) : Model :=
  { m with configLine := line, config := call }

variable (root path : Path) (raw : List Char) (conventions : Conventions)

/-- Only the configuration call is read differently in another spelling. -/
theorem ofText_write (s : Spelling) :
    ofText root path (s.write raw) conventions =
      ((ofText root path raw conventions).respell s).withCall (configLine? (s.write raw))
        (ConfigCall.ofRaw? (s.write raw)) := by
  simp only [ofText, respell, withCall, Spelling.stripDirectives_write, Spelling.findBlocks_write]

/-- Nothing is, when only line ends are spelled and none stands in a tag. -/
theorem ofText_crlf
    (h : ∀ call ∈ ConfigCall.ofRaw? raw, ∀ tag ∈ call.tags, '\n' ∉ tag.toList) :
    ofText root path (Spelling.crlf.write raw) conventions =
      (ofText root path raw conventions).respell .crlf := by
  have hcall : ConfigCall.ofRaw? (Spelling.crlf.write raw) = ConfigCall.ofRaw? raw := by
    rw [Spelling.ofRaw?_crlf]
    cases hraw : ConfigCall.ofRaw? raw with
    | none => rfl
    | some call =>
      have htags : call.tags.map Spelling.crlfTag = call.tags.map id :=
        List.map_congr_left fun tag htag => Spelling.crlfTag_eq (h call hraw tag htag)
      rw [Option.map_some, htags, List.map_id]
  rw [ofText_write, hcall, Spelling.configLine?_crlf]
  rfl

end Model

namespace RuleId

open Spelling

variable {s : Spelling}

/-! ## What rules look for -/

theorem follows_surrogateMarker : s.Follows surrogateMarker := by
  have hname : s.Follows (Recogniser.folded "surrogate_key".toList) := follows_folded (by decide)
  have hending : s.Follows (Recogniser.folded ['_', 's', 'k']) := follows_folded (by decide)
  intro cs
  rw [surrogateMarker, surrogateMarker, hname]
  cases Recogniser.folded "surrogate_key".toList cs with
  | some rest => rfl
  | none =>
    simp only [Option.map_none, hending cs]
    cases Recogniser.folded ['_', 's', 'k'] cs with
    | none => rfl
    | some rest =>
      simp only [Option.map_some, isWordAt_head?_write]
      rw [apply_ite (Option.map _)]
      rfl

theorem follows_commentStart : s.Follows commentStart := by
  have hdashes : s.Follows (Recogniser.literal ['-', '-']) :=
    follows_literal fun x hx => fixes_of_isSign (by revert x; decide)
  intro cs
  rw [commentStart, commentStart, hdashes, Option.map_map, Option.map_map]
  exact congrArg (Option.map · _) (funext skipWhite_write)

theorem follows_groupComment {word : String}
    (h : ∀ p ∈ word.toList, isWhite (foldCase p) = false) : s.Follows (groupComment word) :=
  follows_commentStart.bind (follows_folded h)

theorem follows_metadataComment : s.Follows metadataComment := by
  have hmetadata : s.Follows (Recogniser.folded "metadata".toList) := follows_folded (by decide)
  have hdbt : ∀ cs, (Recogniser.folded ['d', 'b', 't'] (s.write cs)).bind Recogniser.white1 =
      ((Recogniser.folded ['d', 'b', 't'] cs).bind Recogniser.white1).map s.write :=
    (follows_folded (by decide)).bind follows_white1
  refine follows_commentStart.bind fun cs => ?_
  rw [hdbt]
  cases (Recogniser.folded ['d', 'b', 't'] cs).bind Recogniser.white1 with
  | none => exact hmetadata cs
  | some rest => exact hmetadata rest

/-- The comments that head a group of columns are found at the same places. -/
theorem respects_of_mem_groupComments {r : Recogniser} (h : r ∈ groupComments) :
    s.Respects (fun _ => r) s.write := by
  simp only [groupComments, List.mem_cons, List.not_mem_nil, or_false] at h
  rcases h with rfl | rfl | rfl | rfl | rfl | rfl | rfl
  case inr.inr.inr.inr.inr.inl => exact follows_metadataComment.respects fun _ _ => rfl
  all_goals exact (follows_groupComment (by decide)).respects fun _ _ => rfl

theorem groupCount_write (text : List Char) : groupCount (s.write text) = groupCount text := by
  refine List.countP_congr fun r hr => ?_
  rw [(respects_of_mem_groupComments hr).occurs_write]

theorem restOfLineIsWhite_write (cs : List Char) :
    restOfLineIsWhite (s.write cs) = restOfLineIsWhite cs := by
  rw [restOfLineIsWhite, restOfLineIsWhite, takeWhile_write keeps_isWhite, skipWhite_write,
    isEmpty_write]
  simp only [List.contains_eq_mem, mem_feed_write]

theorem respects_plainSelection : s.Respects plainSelection id where
  here prev cs := by
    have hstart : (guard (s.before prev = none ∨ s.before prev = some '\n') : Option Unit) =
        guard (prev = none ∨ prev = some '\n') := if_congr (before_startsLine prev) rfl rfl
    rw [Option.map_id, plainSelection, plainSelection, hstart]
    refine congrArg _ (funext fun _ => ?_)
    -- one part of the selection after the other, up to the question about the rest of its line
    refine follows_selectKeyword.behindWhite.bind_eq (fun cs => ?_) cs
    refine follows_white1.bind_eq (fun cs => ?_) cs
    refine (follows_sign (by decide)).bind_eq (fun cs => ?_) cs
    refine follows_white1.bind_eq (fun cs => ?_) cs
    refine follows_fromClause.bind_eq (fun cs => ?_) cs
    refine follows_word.bind_eq (fun cs => ?_) cs
    rw [restOfLineIsWhite_write]
  inside _ _ _ := rfl

/-! ## Rules on blocks -/

/-- The rules that look at blocks in any case. -/
def blockRules : List RuleId :=
  [blockPresence, blockOrder, surrogateKey, finalExplicitColumns, columnGrouping, finalSelect]

variable (m : Model) (severity : Severity)

theorem enhancedRegion_respell : enhancedRegion (m.respell s) = s.write (enhancedRegion m) := by
  rw [enhancedRegion, enhancedRegion, Model.respell, isolate?_write (by decide)]
  cases isolate? "enhanced".toList m.raw with
  | none => rfl
  | some region => rfl

theorem checkSurrogateKey_respell :
    checkSurrogateKey severity (m.respell s) = checkSurrogateKey severity m := by
  have hmarker : s.Respects (fun _ => surrogateMarker) s.write :=
    follows_surrogateMarker.respects fun _ _ => rfl
  rw [checkSurrogateKey, enhancedRegion_respell, hmarker.occurs_write]
  rfl

theorem checkLoadedAt_respell :
    checkLoadedAt severity (m.respell .crlf) = checkLoadedAt severity m := by
  have hname : crlf.Respects (fun _ => Recogniser.literal "_loaded_at".toList) crlf.write :=
    (crlf_follows_literal (by decide)).respects fun _ _ => rfl
  rw [checkLoadedAt, enhancedRegion_respell, containsText, hname.occurs_write]
  rfl

theorem checkFinalExplicitColumns_respell :
    checkFinalExplicitColumns severity (m.respell s) = checkFinalExplicitColumns severity m := by
  have hcolumns : ((isolate? "final".toList (s.write m.stripped)).bind selectList).any isExplicit =
      ((isolate? "final".toList m.stripped).bind selectList).any isExplicit := by
    rw [isolate?_write (by decide)]
    cases isolate? "final".toList m.stripped with
    | none => rfl
    | some region => exact any_isExplicit_selectList_write region
  rw [checkFinalExplicitColumns, Model.respell, hcolumns]
  rfl

theorem checkColumnGrouping_respell :
    checkColumnGrouping severity (m.respell s) = checkColumnGrouping severity m := by
  rw [checkColumnGrouping, Model.respell, groupCount_write]
  rfl

theorem checkFinalSelect_respell :
    checkFinalSelect severity (m.respell s) = checkFinalSelect severity m := by
  rw [checkFinalSelect, Model.respell, respects_plainSelection.scan?_none_write, Option.isSome_map]
  rfl

/-- **A rule on blocks finds the same in a model that is respelled.** -/
theorem check_respell {id : RuleId} (h : id ∈ blockRules) :
    id.check severity (m.respell s) = id.check severity m := by
  simp only [blockRules, List.mem_cons, List.not_mem_nil, or_false] at h
  rcases h with rfl | rfl | rfl | rfl | rfl | rfl
  · rfl
  · rfl
  · exact checkSurrogateKey_respell m severity
  · exact checkFinalExplicitColumns_respell m severity
  · exact checkColumnGrouping_respell m severity
  · exact checkFinalSelect_respell m severity

/-- It does not look at the configuration call. -/
theorem check_withCall {id : RuleId} (h : id ∈ blockRules) (line : Option Nat)
    (call : Option ConfigCall) :
    id.check severity (m.withCall line call) = id.check severity m := by
  simp only [blockRules, List.mem_cons, List.not_mem_nil, or_false] at h
  rcases h with rfl | rfl | rfl | rfl | rfl | rfl
  all_goals rfl

/-- It finds the same in a text and in the text in a spelling. -/
theorem check_ofText_write {id : RuleId} (h : id ∈ blockRules) (severity : Severity)
    (root path : Path) (raw : List Char) (conventions : Conventions) :
    id.check severity (.ofText root path (s.write raw) conventions) =
      id.check severity (.ofText root path raw conventions) := by
  rw [Model.ofText_write, check_withCall _ _ h, check_respell _ _ h]

/-- **Every rule finds the same in a model whose line ends are respelled.** -/
theorem check_respell_crlf (id : RuleId) :
    id.check severity (m.respell .crlf) = id.check severity m := by
  by_cases hblock : id ∈ blockRules
  · exact check_respell m severity hblock
  · cases id with
    | loadedAt => exact checkLoadedAt_respell m severity
    | configBlock => rfl
    | materializedView => rfl
    | tagsMissing => rfl
    | tagsStaging => rfl
    | tagsThird => rfl
    | tagsSource => rfl
    | _ => exact absurd (by decide) hblock

end RuleId

/-! ## Texts in two spellings -/

/-- **Rules on blocks do not see the case of a text.** Two texts that are equal up to the case of
ASCII letters have the same blocks on the same lines, and each rule on blocks reports the same on
them, wherever they are read from and whatever the conventions are. -/
theorem check_eq_of_sameAsciiCase {a b : List Char} (h : sameAsciiCase a b = true) :
    findBlocks (stripDirectives a) = findBlocks (stripDirectives b) ∧
      ∀ id ∈ RuleId.blockRules, ∀ (severity : Severity) (root path : Path)
        (conventions : Conventions),
          id.check severity (.ofText root path a conventions) =
            id.check severity (.ofText root path b conventions) := by
  have hlower : Spelling.lower.write a = Spelling.lower.write b := by
    rw [Spelling.lower_write, Spelling.lower_write, beq_iff_eq.1 h]
  refine ⟨?_, fun id hid severity root path conventions => ?_⟩
  · rw [← Spelling.findBlocks_write (s := .lower), ← Spelling.stripDirectives_write, hlower,
      Spelling.stripDirectives_write, Spelling.findBlocks_write]
  · rw [← RuleId.check_ofText_write (s := .lower) hid, hlower, RuleId.check_ofText_write hid]

/-- Two blocks in capitals, one with a sigma whose lower case depends on the letters before it. -/
def capitalBlocks : List Char := "WITH STΣ AS (1),\nFINAL AS (2)\n".toList

/-- The same blocks in small letters. -/
def smallBlocks : List Char := "with stΣ as (1),\nfinal as (2)\n".toList

/-- The blocks in capitals are found under the names of the others, and every rule on blocks reports
the same on both. -/
theorem check_capitalBlocks :
    sameAsciiCase capitalBlocks smallBlocks = true ∧
      findBlocks (stripDirectives capitalBlocks) = [⟨"stς", 1⟩, ⟨"final", 2⟩] ∧
      ∀ id ∈ RuleId.blockRules,
        id.check .error (.ofText (.ofString ".") (.ofString "m.sql") capitalBlocks {}) =
          id.check .error (.ofText (.ofString ".") (.ofString "m.sql") smallBlocks {}) := by
  have hsame : sameAsciiCase capitalBlocks smallBlocks = true := by decide
  have hsmall : findBlocks (stripDirectives smallBlocks) = [⟨"stς", 1⟩, ⟨"final", 2⟩] := by
    decide +kernel
  obtain ⟨hblocks, hchecks⟩ := check_eq_of_sameAsciiCase hsame
  exact ⟨hsame, hblocks.trans hsmall, fun id hid => hchecks id hid .error _ _ {}⟩

/-- **Reports do not depend on how lines end.** When a text is written with a carriage return before
every line feed, an auditor reports on it what it reports on the text, unless a tag of its
configuration call holds a line feed; tags are quoted in messages as they are written. -/
theorem auditText_crlf (a : Auditor) (path : Path) {text : List Char}
    (h : ∀ call ∈ ConfigCall.ofRaw? text, ∀ tag ∈ call.tags, '\n' ∉ tag.toList) :
    a.auditText path (text.flatMap fun c => if c = '\n' then ['\r', '\n'] else [c]) =
      a.auditText path text := by
  have hviolations : ∀ m : Model, a.violations (m.respell .crlf) = a.violations m := fun m => by
    simp only [Auditor.violations, Rule.check, RuleId.check_respell_crlf]
  show a.auditText path (Spelling.crlf.write text) = a.auditText path text
  rw [Auditor.auditText, Auditor.auditText]
  cases a.excludedBy? path with
  | some pattern => rfl
  | none =>
    dsimp only
    rw [Model.ofText_crlf _ _ _ _ h, hviolations]

/-- A model with line ends in its configuration call, between its tags and in its block. -/
def spreadModel : List Char :=
  ("\x7b\x7b config(\n  materialized='view',\n  tags=['oda',\n 'staging']) \x7d\x7d\n" ++
    "with final as (\n  select a\n)\n").toList

/-- None of its line ends is in a tag, so they can be written either way. -/
theorem auditText_crlf_spreadModel :
    (∃ call ∈ ConfigCall.ofRaw? spreadModel, call.tags = ["oda", "staging"] ∧
      ∀ tag ∈ call.tags, '\n' ∉ tag.toList) ∧
    ((Plan.addBattery {}).build (.ofString "/p")).auditText (.ofString "m.sql")
        (spreadModel.flatMap fun c => if c = '\n' then ['\r', '\n'] else [c]) =
      ((Plan.addBattery {}).build (.ofString "/p")).auditText (.ofString "m.sql") spreadModel := by
  have hcall : ConfigCall.ofRaw? spreadModel = some ⟨1, some "view", ["oda", "staging"]⟩ := by
    decide +kernel
  have htags : ∀ tag ∈ ["oda", "staging"], '\n' ∉ tag.toList := by decide
  refine ⟨⟨_, hcall, rfl, htags⟩, auditText_crlf _ _ fun call h => ?_⟩
  obtain rfl := Option.some.inj (hcall.symm.trans h)
  exact htags

end StagingAudit

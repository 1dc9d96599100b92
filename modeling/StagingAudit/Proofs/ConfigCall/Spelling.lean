import StagingAudit.ConfigCall
import StagingAudit.Proofs.Model.Spelling

/-!
# Configuration calls and line ends

The words of a configuration call are read in the case they are written in, so a call is no longer
the same in every spelling. It does not depend on how lines end, though: **with a carriage return
before every line feed a call has the same line, the same materialization and the same tags**
(`ofRaw?_crlf`), except that a line feed within a tag is then written as two characters as well.
-/

namespace StagingAudit

namespace Spelling

theorem crlf_follows_literal {pattern : List Char} (h : ∀ x ∈ pattern, x ≠ '\n' ∧ x ≠ '\r') :
    crlf.Follows (Recogniser.literal pattern) :=
  follows_literal fun x hx => crlf_fixes (h x hx).1 (h x hx).2

theorem crlf_follows_configOpening : crlf.Follows configOpening :=
  (crlf_follows_literal (by decide)).bind ((crlf_follows_literal (by decide)).behindWhite.bind
    (crlf_follows_literal (by decide)).behindWhite)

theorem crlf_follows_configClosing : crlf.Follows configClosing :=
  (crlf_follows_literal (by decide)).bind (crlf_follows_literal (by decide)).behindWhite

theorem find?_configOpening_crlf (raw : List Char) :
    find? configOpening (crlf.write raw) =
      (find? configOpening raw).map fun (before, rest) => (crlf.write before, crlf.write rest) :=
  (crlf_follows_configOpening.respects fun _ _ => rfl).find?_write raw

/-- A call opens on the same line. -/
theorem configLine?_crlf (raw : List Char) : configLine? (crlf.write raw) = configLine? raw := by
  rw [configLine?, configLine?, find?_configOpening_crlf]
  cases hfind : find? configOpening raw with
  | none => rfl
  | some found =>
    obtain ⟨_, rest, hraw, -⟩ := exists_of_scan? hfind
    have hline := @lineAt_write crlf found.1 rest
    rw [← hraw] at hline
    exact congrArg some hline

theorem configArguments?_crlf (raw : List Char) :
    configArguments? (crlf.write raw) = (configArguments? raw).map crlf.write := by
  have hclosing : crlf.Respects (fun _ => configClosing) crlf.write :=
    crlf_follows_configClosing.respects fun _ _ => rfl
  rw [configArguments?, configArguments?, find?_configOpening_crlf]
  cases find? configOpening raw with
  | none => rfl
  | some found =>
    simp only [Option.map_some, Option.bind_eq_bind, Option.bind_some, hclosing.find?_write]
    cases find? configClosing found.2 with
    | none => rfl
    | some closed => rfl

/-! ## Keyword arguments -/

theorem crlf_follows_keyword {name : List Char} (h : ∀ x ∈ name, x ≠ '\n' ∧ x ≠ '\r') :
    crlf.Follows (keyword name) := by
  have hwhite : crlf.Follows Recogniser.white := fun cs => congrArg some (skipWhite_write cs)
  exact (crlf_follows_literal h).bind ((follows_sign (by decide)).behindWhite.bind hwhite)

theorem crlf_follows_tagsOpening : crlf.Follows tagsOpening :=
  (crlf_follows_keyword (by decide)).bind (crlf_follows_literal (by decide))

/-- A tag with a carriage return before every line feed. -/
def crlfTag (tag : String) : String := String.ofList (crlf.write tag.toList)

theorem crlfTag_eq {tag : String} (h : '\n' ∉ tag.toList) : crlfTag tag = tag := by
  rw [crlfTag, crlf_write_eq h, String.ofList_toList]

/-- The pieces of a list that are not empty. -/
theorem pieces_write {s : Spelling} (hcomma : s.Fixes ',') (list : List Char) :
    (((splitAt ',' (s.write list)).map trimWhite).filter fun t => !t.isEmpty) =
      (((splitAt ',' list).map trimWhite).filter fun t => !t.isEmpty).map s.write := by
  have htrim : trimWhite ∘ s.write = s.write ∘ trimWhite := funext trimWhite_write
  have hempty : (fun t : List Char => !t.isEmpty) ∘ s.write = fun t => !t.isEmpty :=
    funext fun t => congrArg not (isEmpty_write t)
  rw [splitAt_write hcomma, List.map_map, htrim, ← List.map_map, List.filter_map, hempty]

theorem crlf_keeps_isQuote : crlf.Keeps isQuote :=
  keeps_of_toLower (apply_toLower (by decide)) (by decide)

/-- The tags are the same, with the line ends within them written alike. -/
theorem extractTags_crlf (arguments : List Char) :
    extractTags (crlf.write arguments) = (extractTags arguments).map crlfTag := by
  have hopening : crlf.Respects (fun _ => tagsOpening) crlf.write :=
    crlf_follows_tagsOpening.respects fun _ _ => rfl
  have hbracket : ∀ x ∈ [']'], crlf.Fixes x := fun x hx =>
    List.mem_singleton.1 hx ▸ fixes_of_isSign (by decide)
  have htag : ∀ t, String.ofList (trimClass isQuote (crlf.write t)) =
      crlfTag (String.ofList (trimClass isQuote t)) := by
    intro t
    rw [trimClass_write crlf_keeps_isQuote, crlfTag, String.toList_ofList]
  rw [extractTags, extractTags, hopening.find?_write]
  cases find? tagsOpening arguments with
  | none => rfl
  | some found =>
    simp only [Option.map_some, cutAt?_write hbracket]
    cases cutAt? [']'] found.2 with
    | none => rfl
    | some cut =>
      simp only [Option.map_some]
      rw [pieces_write (fixes_of_isSign (by decide)), List.map_map, List.map_map]
      exact congrArg (List.map · _) (funext htag)

/-- What stands in the quotation marks at the start of a text: a word, if there is one. -/
theorem quotedWord?_cons (q : Char) (rest : List Char) :
    (quotedWord? (q :: rest)).map (·.1) =
      if isQuote q && (rest.dropWhile isWord).head?.any isQuote &&
          !(rest.takeWhile isWord).isEmpty then
        some (rest.takeWhile isWord)
      else none := by
  rw [quotedWord?]
  cases rest.dropWhile isWord with
  | nil => simp
  | cons q' after =>
    simp only [List.head?_cons, Option.any_some]
    rw [apply_ite (Option.map _)]
    rfl

/-- A quoted word holds no line end. -/
theorem quotedWord?_crlf (cs : List Char) :
    (quotedWord? (crlf.write cs)).map (·.1) = (quotedWord? cs).map (·.1) := by
  cases cs with
  | nil => rfl
  | cons q rest =>
    have hword : crlf.write (rest.takeWhile isWord) = rest.takeWhile isWord :=
      crlf_write_eq (not_mem_of_forall (fun _ hc => List.mem_takeWhile_imp hc) (by decide))
    obtain ⟨d, tail, hwrite, hd, htail⟩ := @exists_write_cons crlf q rest
    rw [hwrite, quotedWord?_cons, quotedWord?_cons, crlf_keeps_isQuote q d hd]
    by_cases hq : q = '\n'
    · rw [hq]
      rfl
    · rw [htail hq, dropWhile_write keeps_isWord, takeWhile_write keeps_isWord,
        any_head?_write crlf_keeps_isQuote, hword]

theorem extractMaterialization_crlf (arguments : List Char) :
    extractMaterialization (crlf.write arguments) = extractMaterialization arguments := by
  have hsearch : crlf.Respects (fun _ cs =>
      ((keyword "materialized".toList cs).bind quotedWord?).map (·.1)) id := by
    refine ⟨fun _ cs => ?_, fun _ _ _ => rfl⟩
    rw [crlf_follows_keyword (by decide)]
    cases keyword "materialized".toList cs with
    | none => rfl
    | some rest =>
      rw [Option.map_id]
      exact quotedWord?_crlf rest
  rw [extractMaterialization, extractMaterialization, hsearch.scan?_none_write, Option.map_map]
  rfl

/-! ## Metadata -/

/-- **A configuration call does not depend on how lines end,** but for line ends within tags. -/
theorem ofRaw?_crlf (raw : List Char) :
    ConfigCall.ofRaw? (crlf.write raw) =
      (ConfigCall.ofRaw? raw).map fun call => { call with tags := call.tags.map crlfTag } := by
  rw [ConfigCall.ofRaw?, ConfigCall.ofRaw?, configLine?_crlf, configArguments?_crlf]
  cases configLine? raw with
  | none => rfl
  | some line =>
    cases configArguments? raw with
    | none => rfl
    | some arguments =>
      simp only [Option.map_some, Option.bind_eq_bind, Option.bind_some,
        extractMaterialization_crlf, extractTags_crlf]
      rfl

end Spelling

end StagingAudit

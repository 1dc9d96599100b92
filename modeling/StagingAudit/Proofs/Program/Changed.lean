import StagingAudit.Proofs.Program.Exit

/-!
# Checking what has changed

A check of changed models asks git up to two times. It is told that git cannot be started, or that
a diff failed, or what a diff lists; and it goes on in one of three ways (`Changes.Comes`). When
git cannot be started, the models of the project are checked instead. When it lists no model, the
run says so and ends. **A failure of git is taken for an empty list in one case only: when both
diffs are started and both fail** (`noSilentPass_iff`), as in `check_of_failingGit`.
-/

namespace StagingAudit

/-! ## Asking git -/

/-- What can come of asking git for changes. -/
inductive Changes.Comes (dirs : List Path) (ask : String → Option GitAnswer) : Changes → Prop where
  /-- it cannot be started -/
  | unstarted : Comes dirs ask ⟨none, []⟩
  /-- it fails for `origin/main` and cannot be started again -/
  | stopped {main : GitAnswer} (hmain : ask "origin/main" = some main) (hfails : main.status ≠ 0) :
      Comes dirs ask ⟨none, [diffArguments "origin/main" dirs]⟩
  /-- it lists the changes since `origin/main` -/
  | sinceMain {main : GitAnswer} (hmain : ask "origin/main" = some main)
      (hsucceeds : main.status = 0) :
      Comes dirs ask ⟨some main.output, [diffArguments "origin/main" dirs]⟩
  /-- it fails for `origin/main` and lists the changes since `HEAD` -/
  | sinceHead {head : GitAnswer} (hhead : ask "HEAD" = some head) (hsucceeds : head.status = 0) :
      Comes dirs ask
        ⟨some head.output, [diffArguments "origin/main" dirs, diffArguments "HEAD" dirs]⟩
  /-- it fails for both -/
  | failed {main head : GitAnswer} (hmain : ask "origin/main" = some main)
      (hmainFails : main.status ≠ 0) (hhead : ask "HEAD" = some head)
      (hheadFails : head.status ≠ 0) :
      Comes dirs ask ⟨some [], [diffArguments "origin/main" dirs, diffArguments "HEAD" dirs]⟩

theorem Changes.comes_find (t : FileTree) (cwd root : Path) (dirs : List Path)
    (ask : String → Option GitAnswer) : Comes dirs ask (find t cwd root dirs ask) := by
  rw [find]
  split
  · split
    · exact .unstarted
    · next main hmain =>
      split
      · next hsucceeds => exact .sinceMain hmain hsucceeds
      · next hmainFails =>
        split
        · exact .stopped hmain hmainFails
        · next head hhead =>
          split
          · next hsucceeds => exact .sinceHead hhead hsucceeds
          · next hheadFails => exact .failed hmain hmainFails hhead hheadFails
  · exact .unstarted

/-- The arguments of a diff tell its base revision. -/
theorem diffArguments_inj {base base' : String} {dirs : List Path}
    (h : diffArguments base dirs = diffArguments base' dirs) : base = base' := by
  simpa [diffArguments] using h

namespace Changes.Comes

variable {dirs : List Path} {ask : String → Option GitAnswer} {c : Changes}

/-- Git is asked about two base revisions only. -/
theorem base_of_mem_calls (h : Comes dirs ask c) {base : String}
    (hcall : diffArguments base dirs ∈ c.calls) : base = "origin/main" ∨ base = "HEAD" := by
  cases h with
  | unstarted => cases hcall
  | stopped => exact .inl (diffArguments_inj (List.mem_singleton.1 hcall))
  | sinceMain => exact .inl (diffArguments_inj (List.mem_singleton.1 hcall))
  | sinceHead | failed =>
    rcases List.mem_cons.1 hcall with hmain | hhead
    · exact .inl (diffArguments_inj hmain)
    · exact .inr (diffArguments_inj (List.mem_singleton.1 hhead))

/-- What git lists is the output of a diff that succeeds, unless both diffs fail. -/
theorem succeeds_or_fails (h : Comes dirs ask c) {listing : List UInt8}
    (hlisting : c.listing = some listing) :
    (∃ base answer, diffArguments base dirs ∈ c.calls ∧ ask base = some answer ∧
      answer.status = 0 ∧ answer.output = listing) ∨
    ∃ main head, (diffArguments "origin/main" dirs ∈ c.calls ∧ ask "origin/main" = some main ∧
      main.status ≠ 0) ∧ diffArguments "HEAD" dirs ∈ c.calls ∧ ask "HEAD" = some head ∧
        head.status ≠ 0 := by
  cases h with
  | unstarted => cases hlisting
  | stopped => cases hlisting
  | @sinceMain main hmain hsucceeds =>
    exact .inl ⟨_, main, .head _, hmain, hsucceeds, Option.some.inj hlisting⟩
  | @sinceHead head hhead hsucceeds =>
    exact .inl ⟨_, head, .tail _ (.head _), hhead, hsucceeds, Option.some.inj hlisting⟩
  | @failed main head hmain hmainFails hhead hheadFails =>
    exact .inr ⟨main, head, ⟨.head _, hmain, hmainFails⟩, .tail _ (.head _), hhead, hheadFails⟩

/-- When the second diff is started and fails, nothing is listed. -/
theorem listing_of_head_fails (h : Comes dirs ask c) {head : GitAnswer}
    (hcall : diffArguments "HEAD" dirs ∈ c.calls) (hhead : ask "HEAD" = some head)
    (hfails : head.status ≠ 0) : c.listing = some [] := by
  have hmain : diffArguments "HEAD" dirs ≠ diffArguments "origin/main" dirs := by
    intro heq
    exact absurd (diffArguments_inj heq) (by decide)
  cases h with
  | unstarted => cases hcall
  | stopped => exact absurd (List.mem_singleton.1 hcall) hmain
  | sinceMain => exact absurd (List.mem_singleton.1 hcall) hmain
  | @sinceHead answer hanswer hsucceeds =>
    obtain rfl := Option.some.inj (hanswer.symm.trans hhead)
    exact absurd hsucceeds hfails
  | failed => rfl

end Changes.Comes

/-- The same check of all models of a project. -/
def CheckArguments.allModels (args : CheckArguments) : CheckArguments :=
  { args with changed := false, paths := [] }

namespace World

variable {w : World} {named : Option Path} {args : CheckArguments} {settings : Settings}

/-! ## One run -/

/-- A check starts `git diff` with a base revision and gets an answer. -/
structure Diffs (w : World) (named : Option Path) (args : CheckArguments) (settings : Settings)
    (base : String) (answer : GitAnswer) : Prop where
  /-- the settings of the run -/
  loaded : w.loadSettings (w.settingsSource named args.root) = .ok settings
  /-- git is started -/
  started : diffArguments base settings.scope.paths ∈ (w.check named args).gitCalls
  /-- and answers -/
  answered : w.askGit base = some answer

/-- What git says about the changes in a project with some settings. -/
def changes (w : World) (args : CheckArguments) (settings : Settings) : Changes :=
  .find w.tree w.cwd (w.auditor settings args.root).root settings.scope.paths w.askGit

theorem gitCalls_check (h : w.loadSettings (w.settingsSource named args.root) = .ok settings) :
    (w.check named args).gitCalls = (w.find (w.auditor settings args.root) args).calls := by
  rw [check, h]
  dsimp only
  split
  · rfl
  · rfl
  · rfl
  · split <;> rfl

/-- What a check of changed models goes on with. -/
theorem find_changed (h : args.changed) :
    w.find (w.auditor settings args.root) args =
      match (w.changes args settings).files w.tree w.cwd (w.auditor settings args.root).root with
      | some [] => { files := .ok none, calls := (w.changes args settings).calls }
      | some files => { files := .ok (some files), calls := (w.changes args settings).calls }
      | none =>
        { files := (w.search.defaultFiles (w.auditor settings args.root).root
            settings.scope.paths).map some
          messages := [warning "git not available, falling back to all staging models"]
          calls := (w.changes args settings).calls } := by
  rw [find, if_pos h]
  rfl

theorem calls_find (h : args.changed) :
    (w.find (w.auditor settings args.root) args).calls = (w.changes args settings).calls := by
  rw [find_changed h]
  split <;> rfl

/-- When git lists something, the models among it are checked, if there are any. -/
theorem files_find_of_listing (h : args.changed) {listing : List UInt8}
    (hlisting : (w.changes args settings).listing = some listing) :
    (w.find (w.auditor settings args.root) args).files =
      .ok (match listedModels w.tree w.cwd (w.auditor settings args.root).root listing with
        | [] => none
        | files => some files) := by
  rw [find_changed h, Changes.files, hlisting, Option.map_some]
  cases listedModels w.tree w.cwd (w.auditor settings args.root).root listing <;> rfl

/-- When git cannot be started, the models of the project are checked. -/
theorem files_find_of_unlisted (h : args.changed)
    (hlisting : (w.changes args settings).listing = none) :
    (w.find (w.auditor settings args.root) args).files =
      (w.find (w.auditor settings args.root) args.allModels).files := by
  rw [find_changed h, Changes.files, hlisting, Option.map_none]
  rfl

/-- A check that finds the files of the project ends as a check of all models does. -/
theorem check_eq_allModels
    (hloaded : w.loadSettings (w.settingsSource named args.root) = .ok settings)
    (hfiles : (w.find (w.auditor settings args.root) args).files =
      (w.find (w.auditor settings args.root) args.allModels).files) :
    (w.check named args).exit = (w.check named args.allModels).exit ∧
      (w.check named args).stdout = (w.check named args.allModels).stdout := by
  have hroot : args.allModels.root = args.root := rfl
  simp only [check, hloaded, hfiles, hroot]
  split
  · exact ⟨rfl, rfl⟩
  · exact ⟨rfl, rfl⟩
  · exact ⟨rfl, rfl⟩
  · split <;> exact ⟨rfl, rfl⟩

theorem check_eq_allModels_of_error {fault : Path × SettingsError}
    (h : w.loadSettings (w.settingsSource named args.root) = .error fault) :
    (w.check named args).exit = (w.check named args.allModels).exit ∧
      (w.check named args).stdout = (w.check named args.allModels).stdout := by
  have hroot : args.allModels.root = args.root := rfl
  simp only [check, h, hroot, and_self]

/-- Only a run whose search comes to nothing says that no model has changed. -/
theorem isUnchanged_of_stdout (h : (w.check named args).stdout = unchangedLine) :
    w.IsUnchanged named args := by
  rcases w.fails_or_isUnchanged_or_reports named args with hfails | hunchanged | ⟨reports, hreports⟩
  · rw [(check_of_fails hfails).2] at h
    exact absurd h (by decide)
  · exact hunchanged
  · rw [(check_of_reports hreports).2] at h
    exact absurd h (renderReports_ne_unchangedLine _ _ _)

/-! ## Failures of git

A diff can fail in two ways. When git cannot be started there is no answer, and all models of the
project are checked. When it is started and the diff fails, there is an answer without a listing.
After the first diff the second one is tried. After the second one there is nothing left to try, and
the missing listing is taken for an empty one. -/

/-- A check of changed models does not take a failure of git for the absence of changes. -/
structure NoSilentPass (w : World) (named : Option Path) (args : CheckArguments) : Prop where
  /-- it says that no model has changed only if some diff succeeds and lists none that exists -/
  said : (w.check named args).exit = 0 → (w.check named args).stdout = unchangedLine →
    ∃ settings base answer, w.Diffs named args settings base answer ∧ answer.status = 0 ∧
      ∀ q ∈ listedPaths answer.output, hasModelExtension q →
        w.tree.exists? w.cwd ((w.auditor settings args.root).root.join q) = false
  /-- and when no diff succeeds, it checks the models of the project -/
  checked : (∀ settings base answer, w.Diffs named args settings base answer → answer.status ≠ 0) →
    (w.check named args).exit = (w.check named args.allModels).exit ∧
      (w.check named args).stdout = (w.check named args.allModels).stdout

/-- Both diffs of a check are started, and both fail. -/
def BothDiffsFail (w : World) (named : Option Path) (args : CheckArguments) : Prop :=
  ∃ settings main head,
    (w.Diffs named args settings "origin/main" main ∧ main.status ≠ 0) ∧
      w.Diffs named args settings "HEAD" head ∧ head.status ≠ 0

theorem comes_changes (w : World) (args : CheckArguments) (settings : Settings) :
    (w.changes args settings).Comes settings.scope.paths w.askGit :=
  Changes.comes_find ..

/-- A run whose search comes to nothing has a list from git, with no model in it. -/
theorem exists_listing_of_finds (hchanged : args.changed)
    (h : w.Finds named args settings (.ok none)) :
    ∃ listing, (w.changes args settings).listing = some listing ∧
      listedModels w.tree w.cwd (w.auditor settings args.root).root listing = [] := by
  have hfound := h.found
  cases hlisting : (w.changes args settings).listing with
  | none =>
    rw [files_find_of_unlisted hchanged hlisting] at hfound
    obtain ⟨files, -, hfiles⟩ := map_eq_ok_iff.1 hfound
    cases hfiles
  | some listing =>
    refine ⟨listing, rfl, ?_⟩
    rw [files_find_of_listing hchanged hlisting] at hfound
    cases hmodels : listedModels w.tree w.cwd (w.auditor settings args.root).root listing with
    | nil => rfl
    | cons file files =>
      rw [hmodels] at hfound
      cases hfound

theorem mem_gitCalls_iff (hchanged : args.changed)
    (hloaded : w.loadSettings (w.settingsSource named args.root) = .ok settings)
    {call : List String} :
    call ∈ (w.check named args).gitCalls ↔ call ∈ (w.changes args settings).calls := by
  rw [gitCalls_check hloaded, calls_find hchanged]

/-- A list from git is the output of a diff that succeeds, unless both fail. -/
theorem exists_diffs_of_listing (hchanged : args.changed)
    (hloaded : w.loadSettings (w.settingsSource named args.root) = .ok settings)
    {listing : List UInt8} (hlisting : (w.changes args settings).listing = some listing) :
    (∃ base answer, w.Diffs named args settings base answer ∧ answer.status = 0 ∧
      answer.output = listing) ∨ w.BothDiffsFail named args := by
  have hcalls : ∀ {call}, call ∈ (w.check named args).gitCalls ↔
      call ∈ (w.changes args settings).calls := mem_gitCalls_iff hchanged hloaded
  rcases (w.comes_changes args settings).succeeds_or_fails hlisting with
    ⟨base, answer, hcall, hanswer, hsucceeds, houtput⟩ |
    ⟨main, head, ⟨hmain, hmainAnswer, hmainFails⟩, hhead, hheadAnswer, hheadFails⟩
  · exact .inl ⟨base, answer, ⟨hloaded, hcalls.2 hcall, hanswer⟩, hsucceeds, houtput⟩
  · exact .inr ⟨settings, main, head, ⟨⟨hloaded, hcalls.2 hmain, hmainAnswer⟩, hmainFails⟩,
      ⟨hloaded, hcalls.2 hhead, hheadAnswer⟩, hheadFails⟩

/-- When both diffs fail, the run says that no model has changed, and no diff has succeeded. -/
theorem isUnchanged_of_bothDiffsFail (hchanged : args.changed) (h : w.BothDiffsFail named args) :
    w.IsUnchanged named args ∧
      ∀ settings base answer, w.Diffs named args settings base answer → answer.status ≠ 0 := by
  obtain ⟨settings, main, head, ⟨hmain, hmainFails⟩, hhead, hheadFails⟩ := h
  have hloaded := hmain.loaded
  have hlisting := (w.comes_changes args settings).listing_of_head_fails
    ((mem_gitCalls_iff hchanged hloaded).1 hhead.started) hhead.answered hheadFails
  refine ⟨⟨settings, hloaded, files_find_of_listing hchanged hlisting⟩, ?_⟩
  intro settings' base answer hdiffs
  obtain rfl : settings = settings' := Except.ok.inj (hloaded.symm.trans hdiffs.loaded)
  rcases (w.comes_changes args settings).base_of_mem_calls
    ((mem_gitCalls_iff hchanged hloaded).1 hdiffs.started) with rfl | rfl
  · rwa [← Option.some.inj (hmain.answered.symm.trans hdiffs.answered)]
  · rwa [← Option.some.inj (hhead.answered.symm.trans hdiffs.answered)]

end World

/-- **When a failure of git is not taken for the absence of changes.** A check of changed models
says that no model has changed only on the word of a diff that succeeds, and checks all models of
the project when no diff succeeds, unless both diffs can be started and both fail. In that case it
says that no model has changed. -/
theorem noSilentPass_iff (w : World) (named : Option Path) (args : CheckArguments)
    (hchanged : args.changed) :
    w.NoSilentPass named args ↔ ¬w.BothDiffsFail named args := by
  constructor
  · intro h hfail
    obtain ⟨hunchanged, hfails⟩ := World.isUnchanged_of_bothDiffsFail hchanged hfail
    obtain ⟨hexit, hstdout⟩ := World.check_of_isUnchanged hunchanged
    obtain ⟨settings, base, answer, hdiffs, hsucceeds, -⟩ := h.said hexit hstdout
    exact hfails settings base answer hdiffs hsucceeds
  · intro h
    refine ⟨?_, ?_⟩
    · intro _ hstdout
      obtain ⟨settings, hfinds⟩ := World.isUnchanged_of_stdout hstdout
      obtain ⟨listing, hlisting, hnone⟩ := World.exists_listing_of_finds hchanged hfinds
      rcases World.exists_diffs_of_listing hchanged hfinds.loaded hlisting with
        ⟨base, answer, hdiffs, hsucceeds, rfl⟩ | hfail
      · exact ⟨settings, base, answer, hdiffs, hsucceeds, listedModels_eq_nil_iff.1 hnone⟩
      · exact absurd hfail h
    · intro hfails
      cases hloaded : w.loadSettings (w.settingsSource named args.root) with
      | error fault => exact World.check_eq_allModels_of_error hloaded
      | ok settings =>
        cases hlisting : (w.changes args settings).listing with
        | none =>
          exact World.check_eq_allModels hloaded (World.files_find_of_unlisted hchanged hlisting)
        | some listing =>
          rcases World.exists_diffs_of_listing hchanged hloaded hlisting with
            ⟨base, answer, hdiffs, hsucceeds, -⟩ | hfail
          · exact absurd hsucceeds (hfails settings base answer hdiffs)
          · exact absurd hfail h

/-- A project with an empty model, and a git that gives the same exit status for each base
revision that is not `HEAD`, and another one for `HEAD`. -/
def emptyModel (status headStatus : Nat) : World where
  tree := .directory [("models".toList, .directory [("operations".toList, .directory
    [("staging".toList, .directory [("stg.sql".toList, .file [])])])])]
  cwd := .ofString "/"
  git := some fun base => ⟨if base = "HEAD" then headStatus else status, []⟩

/-- When only the first diff fails, nothing has changed on the word of the second one. -/
theorem noSilentPass_emptyModel :
    ((emptyModel 128 0).check none { changed := true }).stdout = World.unchangedLine ∧
      (emptyModel 128 0).NoSilentPass none { changed := true } := by
  refine ⟨by decide +kernel, (noSilentPass_iff _ none { changed := true } rfl).2 ?_⟩
  rintro ⟨settings, main, head, -, hhead, hfails⟩
  have hanswer : some ⟨0, []⟩ = some head := hhead.answered
  exact hfails (congrArg GitAnswer.status (Option.some.inj hanswer)).symm

/-- When both diffs fail, the run says that no model has changed and exits with zero. The model of
the project, which has errors, is not checked. -/
theorem check_of_failingGit :
    ((emptyModel 128 128).check none { changed := true }).exit = 0 ∧
      ((emptyModel 128 128).check none { changed := true }).stdout = World.unchangedLine ∧
      ((emptyModel 128 128).check none {}).exit = 1 ∧
      ¬(emptyModel 128 128).NoSilentPass none { changed := true } := by
  have hexit : ((emptyModel 128 128).check none { changed := true }).exit = 0 := by decide +kernel
  have hstdout : ((emptyModel 128 128).check none { changed := true }).stdout =
      World.unchangedLine := by decide +kernel
  refine ⟨hexit, hstdout, by decide +kernel, fun h => ?_⟩
  obtain ⟨settings, base, answer, hdiffs, hsucceeds, -⟩ := h.said hexit hstdout
  have hanswer : some ⟨if base = "HEAD" then 128 else 128, []⟩ = some answer := hdiffs.answered
  rw [ite_self] at hanswer
  rw [← Option.some.inj hanswer] at hsucceeds
  cases hsucceeds

end StagingAudit

import KernelTools.FileSystem.Editing
import KernelTools.Proofs.Config.Choosing
import KernelTools.Proofs.Run.Footprint

/-!
# How a run for the tables is configured

Before a run for the tables looks at a target, its configuration has to load; a configuration that
does not load is all that such a run reports.  Then each target is chosen by itself, by a flag, by
the configuration or by a default, and the run works on the two.

Main results:

- Theorem {lit}`run_of_load` and theorem {lit}`run_of_load_error`: what a run for the tables comes to,
  with a configuration and without one.
- Theorem {lit}`worksOn_of_load`: a run for the tables works on the paths that are chosen.
- Theorem {lit}`isrs_run_configured`: which configuration applies, and what it decides.
-/

namespace KernelTools

open CommandLine (Options)
open Config (Configured LoadError)
open Interrupt (Freshness TablesError generate)

variable {fs : FileSystem} {options : Options} {source inclusion : Option Text} {check : Bool}
  {loaded : Config.Loaded} {config : Config} {words : List Text}

/-! ## What a run comes to -/

/-- A run whose configuration loads works on the paths that are chosen. -/
theorem run_of_load (hcommand : options.command = .isrs source inclusion check)
    (hload : Config.load fs options.config = .ok loaded) :
    run fs options =
      let sourcePath := choosePath source loaded.config.source defaultSource
      let inclusionPath := choosePath inclusion loaded.config.inclusion defaultInclusion
      let outcome :=
        if check then runCheck fs sourcePath inclusionPath
        else runGenerate fs sourcePath inclusionPath
      { outcome with records := loaded.records ++ outcome.records } := by
  simp only [run_of_isrs hcommand, runIsrs, hload]

/-- A run whose configuration does not load does nothing. -/
theorem run_of_load_error {e : LoadError} (hcommand : options.command = .isrs source inclusion check)
    (hload : Config.load fs options.config = .error e) :
    run fs options = ⟨[], [], some (.config e), fs⟩ := by
  simp only [run_of_isrs hcommand, runIsrs, hload]

/-! ## Runs that generate or check -/

/-- How a generation makes a run fail. -/
def generateFailure : Except TablesError Unit → Option Failure
  | .error e => some (.generating e)
  | .ok () => none

/-- How a check makes a run fail. -/
def checkFailure : Except TablesError Freshness → Option Failure
  | .error e => some (.checking e)
  | .ok freshness => if freshness = ⟨.upToDate, .upToDate⟩ then none else some .outOfDate

/-- A run works on the files at two paths, whose contents it checks or generates: it leaves what
that leaves, and it fails when that fails, for the same reason. -/
inductive WorksOn (fs : FileSystem) (sourcePath inclusionPath : Text) (o : Outcome) : Bool → Prop
  | checks (hfs : o.fs = fs)
    (hfailure : o.failure = checkFailure (Interrupt.check fs sourcePath inclusionPath)) :
    WorksOn fs sourcePath inclusionPath o true
  | generates (hfs : o.fs = (generate fs sourcePath inclusionPath).fs)
    (hfailure : o.failure = generateFailure (generate fs sourcePath inclusionPath).result)
    (hrecords : (generate fs sourcePath inclusionPath).records <:+: o.records) :
    WorksOn fs sourcePath inclusionPath o false

theorem isUpToDate_iff {freshness : Freshness} :
    freshness.isUpToDate = true ↔ freshness = ⟨.upToDate, .upToDate⟩ := by
  cases freshness
  simp [Freshness.isUpToDate]

theorem runCheck_failure (fs : FileSystem) (sourcePath inclusionPath : Text) :
    (runCheck fs sourcePath inclusionPath).failure =
      checkFailure (Interrupt.check fs sourcePath inclusionPath) := by
  rw [runCheck]
  cases Interrupt.check fs sourcePath inclusionPath with
  | error e => rfl
  | ok freshness => simp only [checkFailure, isUpToDate_iff]

theorem runGenerate_failure (fs : FileSystem) (sourcePath inclusionPath : Text) :
    (runGenerate fs sourcePath inclusionPath).failure =
      generateFailure (generate fs sourcePath inclusionPath).result := by
  simp only [runGenerate]
  cases (generate fs sourcePath inclusionPath).result <;> rfl

theorem prefix_runGenerate_records (fs : FileSystem) (sourcePath inclusionPath : Text) :
    (generate fs sourcePath inclusionPath).records <+:
      (runGenerate fs sourcePath inclusionPath).records := by
  simp only [runGenerate]
  cases (generate fs sourcePath inclusionPath).result with
  | error e => exact List.prefix_rfl
  | ok _ => exact List.prefix_append _ _

/-- A run whose configuration loads works on the paths that are chosen. -/
theorem worksOn_of_load (hcommand : options.command = .isrs source inclusion check)
    (hload : Config.load fs options.config = .ok loaded) :
    WorksOn fs (choosePath source loaded.config.source defaultSource)
      (choosePath inclusion loaded.config.inclusion defaultInclusion) (run fs options) check := by
  rw [run_of_load hcommand hload]
  cases check with
  | true => exact .checks (runCheck_fs fs _ _) (runCheck_failure fs _ _)
  | false =>
    refine .generates (runGenerate_fs fs _ _) (runGenerate_failure fs _ _) ?_
    exact (prefix_runGenerate_records fs _ _).isInfix.trans (List.suffix_append _ _).isInfix

/-! ## Runs without a configuration -/

/-- A run ends with an error of the configuration: it says what could not be done with which file,
and changes nothing.  On any other file system with the same error, and with any other settings, it
comes to the same; so it has looked at no target. -/
structure StopsAt (fs : FileSystem) (options : Options) (e : LoadError) (attempt : String)
    (path : Text) : Prop where
  exitCode_eq : (run fs options).exitCode = 1
  chain_eq : ∃ causes, (run fs options).failure.map Failure.chain =
    some (.message (attempt.toList ++ " config `".toList ++ path ++ "`".toList) :: causes)
  fs_eq : (run fs options).fs = fs
  unseen : ∀ fs' source inclusion check, Configured fs' options.config (.error e) →
    run fs' { options with command := .isrs source inclusion check } =
      { run fs options with fs := fs' }

theorem stopsAt_of_load_error {e : LoadError} {attempt : String} {path : Text}
    (hcommand : options.command = .isrs source inclusion check)
    (hload : Config.load fs options.config = .error e)
    (hmessage : e.message = attempt.toList ++ " config `".toList ++ path ++ "`".toList) :
    StopsAt fs options e attempt path := by
  have hrun := run_of_load_error hcommand hload
  refine ⟨?_, ?_, ?_, ?_⟩
  · rw [hrun]
    rfl
  · rw [hrun, ← hmessage]
    exact ⟨_, rfl⟩
  · rw [hrun]
  · intro fs' source' inclusion' check' hconfigured
    have hrun' : run fs' { options with command := .isrs source' inclusion' check' } = _ :=
      run_of_load_error rfl (Config.load_eq_error_iff.2 hconfigured)
    rw [hrun', hrun]

/-! ## The settings of a run -/

/-- A command line asks to generate or to check the tables, and a configuration applies to it. -/
structure IsConfigured (fs : FileSystem) (words : List Text) (options : Options)
    (source inclusion : Option Text) (check : Bool) (config : Config) : Prop where
  read_eq : CommandLine.read words = .ok options
  command_eq : options.command = .isrs source inclusion check
  configured : Configured fs options.config (.ok config)

/-- Each path is chosen by itself. -/
structure ChosenPaths (source inclusion : Option Text) (config : Config)
    (sourcePath inclusionPath : Text) : Prop where
  source : Chosen source config.source defaultSource sourcePath
  inclusion : Chosen inclusion config.inclusion defaultInclusion inclusionPath

theorem exists_worksOn (h : IsConfigured fs words options source inclusion check config) :
    let sourcePath := choosePath source config.source defaultSource
    let inclusionPath := choosePath inclusion config.inclusion defaultInclusion
    ChosenPaths source inclusion config sourcePath inclusionPath ∧
      WorksOn fs sourcePath inclusionPath (run fs options) check := by
  obtain ⟨loaded, hload, rfl⟩ := Config.exists_load_eq_ok_iff.2 h.configured
  refine ⟨⟨choosePath_eq_iff.1 rfl, choosePath_eq_iff.1 rfl⟩, ?_⟩
  exact worksOn_of_load h.command_eq hload

/-- Exactly one configuration applies to a command line for the tables, or exactly one error stands
in its place; with a file named, that file alone decides.  An error ends the run before it looks at a
target.  With a configuration, the run works on two paths, each chosen by itself: any other run with
the same setting for one of them, in the flags and in the configuration, works on the same one. -/
theorem isrs_run_configured (hread : CommandLine.read words = .ok options)
    (hcommand : options.command = .isrs source inclusion check) :
    (∃! outcome, Configured fs options.config outcome) ∧
      (∀ path fs', options.config = some path → fs'.read path = fs.read path →
        Config.load fs' options.config = Config.load fs options.config) ∧
      (∀ path, Configured fs options.config (.error (.unreadable path)) →
        StopsAt fs options (.unreadable path) "failed reading" path) ∧
      (∀ path, Configured fs options.config (.error (.malformed path)) →
        StopsAt fs options (.malformed path) "failed parsing" path) ∧
      ∀ config, Configured fs options.config (.ok config) →
        ∃ sourcePath inclusionPath,
          ChosenPaths source inclusion config sourcePath inclusionPath ∧
          WorksOn fs sourcePath inclusionPath (run fs options) check ∧
          ∀ fs' words' options' source' inclusion' check' config',
            IsConfigured fs' words' options' source' inclusion' check' config' →
            (source' = source → config'.source = config.source →
              ∃ other, ChosenPaths source' inclusion' config' sourcePath other ∧
                WorksOn fs' sourcePath other (run fs' options') check') ∧
            (inclusion' = inclusion → config'.inclusion = config.inclusion →
              ∃ other, ChosenPaths source' inclusion' config' other inclusionPath ∧
                WorksOn fs' other inclusionPath (run fs' options') check') := by
  refine ⟨Config.existsUnique_configured fs options.config, ?_, ?_, ?_, ?_⟩
  · intro path fs' hnamed hreads
    rw [hnamed]
    exact Config.load_congr_of_named hreads
  · intro path hconfigured
    exact stopsAt_of_load_error hcommand (Config.load_eq_error_iff.2 hconfigured) rfl
  · intro path hconfigured
    exact stopsAt_of_load_error hcommand (Config.load_eq_error_iff.2 hconfigured) rfl
  · intro config hconfigured
    obtain ⟨hchosen, hworks⟩ := exists_worksOn ⟨hread, hcommand, hconfigured⟩
    refine ⟨_, _, hchosen, hworks, ?_⟩
    intro fs' words' options' source' inclusion' check' config' hconfigured'
    -- The other run works on its own pair, of which the path with the same setting is the same.
    have hworks' := exists_worksOn hconfigured'
    constructor
    · rintro rfl hsource
      rw [hsource] at hworks'
      exact ⟨_, hworks'⟩
    · rintro rfl hinclusion
      rw [hinclusion] at hworks'
      exact ⟨_, hworks'⟩

/-- The default file sets the source, a flag the include; and a file that is named is no
configuration. -/
theorem isrs_run_configured_of_files :
    let config : Name := ⟨"xtask.toml".toList, by decide⟩
    let fs (contents : String) : FileSystem :=
      FileSystem.fresh.put (config :: FileSystem.fresh.workingDirectory)
        (.file (Text.utf8 contents.toList))
    let words : List Text := ["isrs", "--include", "b.inc", "--check"].map String.toList
    let named : List Text := words ++ ["--config".toList, config.text]
    (∃ options, CommandLine.read words = .ok options ∧
      WorksOn (fs "[isrs]\nsource = 'a.c'\n") "a.c".toList "b.inc".toList
        (run (fs "[isrs]\nsource = 'a.c'\n") options) true) ∧
      ∃ options, CommandLine.read named = .ok options ∧
        StopsAt (fs "[isrs") options (.malformed config.text) "failed parsing" config.text := by
  intro config fs words named
  have hlocate (contents : String) :
      (fs contents).locate .use config.text =
        .ok (.present (config :: FileSystem.fresh.workingDirectory)
          (.file (Text.utf8 contents.toList))) := by
    refine FileSystem.locate_name_eq_ok_iff.2 (.leaf ?_ ?_ (by simp))
    · rw [FileSystem.workingDirectory_put, FileSystem.nodeAt_put, if_neg (by decide +kernel)]
      decide +kernel
    · rw [FileSystem.workingDirectory_put, FileSystem.nodeAt_put, if_pos rfl]
  have hread (contents : String) :
      (fs contents).read config.text = .ok (Text.utf8 contents.toList) := by
    simp only [FileSystem.read, hlocate]
  constructor
  · have hconfigured : Configured (fs "[isrs]\nsource = 'a.c'\n") none
        (.ok ⟨some "a.c".toList, none⟩) :=
      .loaded (.default (FileSystem.foundAt?_eq_some_iff.2 ⟨_, hlocate _⟩)) (hread _)
        (by decide +kernel)
    refine ⟨⟨0, false, none, .isrs none (some "b.inc".toList) true⟩, rfl, ?_⟩
    obtain ⟨-, -, -, -, hall⟩ :=
      @isrs_run_configured (fs "[isrs]\nsource = 'a.c'\n") _ _ _ _ words rfl rfl
    obtain ⟨sourcePath, inclusionPath, ⟨hsource, hinclusion⟩, hworks, -⟩ := hall _ hconfigured
    cases hsource
    cases hinclusion
    exact hworks
  · have hconfigured : Configured (fs "[isrs") (some config.text)
        (.error (.malformed config.text)) :=
      .malformed (.named _) (hread _) (by decide +kernel)
    refine ⟨⟨0, false, some config.text, .isrs none (some "b.inc".toList) true⟩, rfl, ?_⟩
    obtain ⟨-, -, -, hmalformed, -⟩ := @isrs_run_configured (fs "[isrs") _ _ _ _ named rfl rfl
    exact hmalformed _ hconfigured

end KernelTools

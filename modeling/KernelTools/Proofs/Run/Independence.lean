import KernelTools.FileSystem.Editing
import KernelTools.Proofs.CommandLine.Omission
import KernelTools.Proofs.FileSystem.Straying
import KernelTools.Proofs.Wildcard.Tree
import KernelTools.Report
import KernelTools.Run

/-!
# What a run does not depend on

Two runs are compared.  Command lines that differ in the flags for verbosity alone lead to the same
run, of which more or fewer records are shown.  Counting sizes depends on the command line alone,
and searching on the tree besides; neither looks at the configuration, nor into any file.

Main results:

- Theorem {lit}`shownAt_threshold_iff`: which levels the flags for verbosity show.
- Theorem {lit}`verbosity_only_filters`: the flags for verbosity choose among the records of a run.
- Theorem {lit}`alike_of_alikeBut_configuration`: sizes and searches do not depend on the
  configuration or on the contents of files.
-/

namespace KernelTools

open CommandLine (AlikeBut Options)
open FileSystem (LeadsNowhere)
open Log (Level Record)

/-! ## Levels that are shown -/

/-- The levels that the flags for verbosity show: errors alone when quiet, otherwise all that
matters to a user, and what is meant for debugging and tracing when it is asked for. -/
def Log.visibleLevels (quiet : Bool) (verbosity : Nat) : List Level :=
  match quiet, verbosity with
  | true, _ => [.error]
  | false, 0 => [.error, .warn, .info]
  | false, 1 => [.error, .warn, .info, .debug]
  | false, _ => [.error, .warn, .info, .debug, .trace]

/-- The threshold lets the visible levels through. -/
theorem shownAt_threshold_iff (quiet : Bool) (verbosity : Nat) (record : Record) :
    record.shownAt (Log.threshold quiet verbosity) = true ↔
      record.level ∈ Log.visibleLevels quiet verbosity := by
  unfold Record.shownAt Log.threshold Log.visibleLevels
  cases quiet with
  | true => cases record.level <;> simp [Level.rank]
  | false =>
    match verbosity with
    | 0 => cases record.level <;> simp [Level.rank]
    | 1 => cases record.level <;> simp [Level.rank]
    | _ + 2 => cases record.level <;> simp [Level.rank]

/-- Every level is visible to those who ask twice or more. -/
theorem mem_visibleLevels {verbosity : Nat} (hverbosity : 2 ≤ verbosity) (level : Level) :
    level ∈ Log.visibleLevels false verbosity := by
  match verbosity with
  | 0 | 1 => omega
  | _ + 2 => cases level <;> simp [Log.visibleLevels]

/-- The options show the records of the visible levels. -/
theorem shownRecords_eq_filter (options : Options) (o : Outcome) :
    shownRecords options o =
      o.records.filter (·.level ∈ Log.visibleLevels options.quiet options.verbosity) := by
  apply List.filter_congr
  intro record _
  rw [Bool.eq_iff_iff, shownAt_threshold_iff, decide_eq_true_iff]

/-- Those who ask twice or more are shown all records. -/
theorem shownRecords_of_loudest {options : Options} (hverbosity : 2 ≤ options.verbosity)
    (hquiet : options.quiet = false) (o : Outcome) : shownRecords options o = o.records := by
  rw [shownRecords_eq_filter, hquiet, List.filter_eq_self]
  intro record _
  simpa using mem_visibleLevels hverbosity record.level

/-! ## Runs that look alike -/

/-- Two outcomes have the same exit code, print the same and fail for the same reasons. -/
structure Outcome.Alike (o o' : Outcome) : Prop where
  exitCode_eq : o.exitCode = o'.exitCode
  outputText_eq : o.outputText = o'.outputText
  chain_eq : o.failure.map Failure.chain = o'.failure.map Failure.chain

variable {words words' : List Text} {options options' : Options} {fs fs' : FileSystem}

theorem Outcome.alike_refl (o : Outcome) : o.Alike o :=
  ⟨rfl, rfl, rfl⟩

/-! ## A check of files that are not there -/

/-- The record of a run that found no configuration. -/
def unconfiguredRecord : Log.Record :=
  ⟨.debug, Config.logTarget, "no ".toList ++ Config.defaultPath ++ " found, using defaults".toList⟩

/-- A check without a configuration complains of two files that are not there. -/
theorem run_check_of_missing {source inclusion : Text} (hconfig : options.config = none)
    (hcommand : options.command = .isrs (some source) (some inclusion) true)
    (hdefault : LeadsNowhere fs Config.defaultPath) (hsource : LeadsNowhere fs source)
    (hinclusion : LeadsNowhere fs inclusion) :
    run fs options =
      ⟨[], [unconfiguredRecord, stateRecord source .missing, stateRecord inclusion .missing],
        some .outOfDate, fs⟩ := by
  have hchosen : Config.chosenPath fs none = none := by
    simp [Config.chosenPath, FileSystem.isPresent_of_leadsNowhere hdefault]
  have hcheck : Interrupt.check fs source inclusion = .ok ⟨.missing, .missing⟩ := by
    simp only [Interrupt.check, Interrupt.compare, FileSystem.read_eq_notFound_iff.2 hsource,
      FileSystem.read_eq_notFound_iff.2 hinclusion]
  simp only [run, hcommand, hconfig, runIsrs, Config.load, hchosen, choosePath, Option.or,
    Option.getD_some, if_true, runCheck, hcheck]
  rfl

/-! ## Verbosity -/

/-- The verbosity has no part in a run. -/
theorem run_eq_of_verbosity (hconfig : options.config = options'.config)
    (hcommand : options.command = options'.command) (fs : FileSystem) :
    run fs options = run fs options' := by
  rw [run, run, hconfig, hcommand]

/-- What a run shows are those records of the loudest run that have a level visible to it. -/
def ShowsVisible (fs : FileSystem) (options loudest : Options) : Prop :=
  shownRecords options (run fs options) =
    (shownRecords loudest (run fs loudest)).filter
      (·.level ∈ Log.visibleLevels options.quiet options.verbosity)

theorem showsVisible_of_loudest {loudest : Options} (hverbosity : loudest.verbosity = 2)
    (hquiet : loudest.quiet = false) (hrun : run fs options = run fs loudest) :
    ShowsVisible fs options loudest := by
  rw [ShowsVisible, shownRecords_of_loudest (Nat.le_of_eq hverbosity.symm) hquiet, hrun,
    shownRecords_eq_filter]

/-- Of two command lines that differ in verbosity alone, the runs come to the same on any file
system and leave the same.  A third command line of that kind asks for all records and is shown all,
and what either run shows are the records visible to it among them. -/
theorem verbosity_only_filters (fs : FileSystem) (halike : AlikeBut .verbosity words words')
    (hread : CommandLine.read words = .ok options)
    (hread' : CommandLine.read words' = .ok options') :
    (run fs options).Alike (run fs options') ∧ (run fs options).fs = (run fs options').fs ∧
      ∃ loud loudest, AlikeBut .verbosity words loud ∧ CommandLine.read loud = .ok loudest ∧
        loudest.verbosity = 2 ∧ loudest.quiet = false ∧
        shownRecords loudest (run fs loudest) = (run fs loudest).records ∧
        ShowsVisible fs options loudest ∧ ShowsVisible fs options' loudest := by
  rcases Options.without_verbosity_eq_iff.1 (halike.without_eq hread hread') with
    ⟨hconfig, hcommand⟩
  have hsame : run fs options = run fs options' := run_eq_of_verbosity hconfig hcommand fs
  let loudest : Options := { options with verbosity := 2, quiet := false }
  have hloudest : run fs options = run fs loudest := run_eq_of_verbosity rfl rfl fs
  refine ⟨hsame ▸ (run fs options).alike_refl, by rw [hsame], _, loudest,
    CommandLine.alikeBut_mostVerbose words, CommandLine.read_mostVerbose hread, rfl, rfl, ?_, ?_, ?_⟩
  · exact shownRecords_of_loudest (Nat.le_refl 2) rfl _
  · exact showsVisible_of_loudest rfl rfl hloudest
  · exact showsVisible_of_loudest rfl rfl (hsame.symm.trans hloudest)

/-- A check fails and complains of two files that are not there, which is all that it shows when it
is quiet; with {lit}`-v` it shows besides that there is no configuration. -/
theorem verbosity_only_filters_of_missing :
    let fs := FileSystem.fresh
    let check : List Text := ["isrs", "--check", "--source", "c", "--include", "inc"].map String.toList
    let quietly := check ++ ["-q".toList]
    let verbosely := "-v".toList :: check
    let complaints : List Record :=
      [stateRecord "c".toList .missing, stateRecord "inc".toList .missing]
    ∃ options options', AlikeBut .verbosity quietly verbosely ∧
      CommandLine.read quietly = .ok options ∧ CommandLine.read verbosely = .ok options' ∧
      (run fs options).exitCode = 1 ∧ shownRecords options (run fs options) = complaints ∧
      shownRecords options' (run fs options') = unconfiguredRecord :: complaints ∧
      (run fs options).Alike (run fs options') ∧ (run fs options).fs = (run fs options').fs ∧
      ∃ loud loudest, AlikeBut .verbosity quietly loud ∧ CommandLine.read loud = .ok loudest ∧
        loudest.verbosity = 2 ∧ loudest.quiet = false ∧
        shownRecords loudest (run fs loudest) = (run fs loudest).records ∧
        ShowsVisible fs options loudest ∧ ShowsVisible fs options' loudest := by
  intro fs check quietly verbosely complaints
  have halike : AlikeBut .verbosity quietly verbosely := by
    unfold AlikeBut
    decide
  have hdir : fs.nodeAt fs.workingDirectory = some .directory := by decide +kernel
  have hnowhere (name : Name) (hnone : fs.nodeAt (name :: fs.workingDirectory) = none) :
      LeadsNowhere fs name.text := FileSystem.leadsNowhere_name hdir hnone
  let options (verbosity : Nat) (quiet : Bool) : Options :=
    ⟨verbosity, quiet, none, .isrs (some "c".toList) (some "inc".toList) true⟩
  have hread : CommandLine.read quietly = .ok (options 0 true) := rfl
  have hread' : CommandLine.read verbosely = .ok (options 1 false) := rfl
  have hrun (verbosity : Nat) (quiet : Bool) : run fs (options verbosity quiet) =
      ⟨[], unconfiguredRecord :: complaints, some .outOfDate, fs⟩ :=
    run_check_of_missing rfl rfl (hnowhere ⟨"xtask.toml".toList, by decide⟩ (by decide +kernel))
      (hnowhere ⟨"c".toList, by decide⟩ (by decide +kernel))
      (hnowhere ⟨"inc".toList, by decide⟩ (by decide +kernel))
  refine ⟨_, _, halike, hread, hread', ?_, ?_, ?_, verbosity_only_filters fs halike hread hread'⟩
  · rw [hrun]
    rfl
  · rw [hrun]
    rfl
  · rw [hrun]
    rfl

/-! ## Configuration and contents -/

/-- What counting sizes comes to does not depend on the file system. -/
theorem runSizes_congr (fs fs' : FileSystem) (sizes : List Text) :
    runSizes fs' sizes = { runSizes fs sizes with fs := fs' } := by
  induction sizes with
  | nil => rfl
  | cons size sizes ih =>
    rw [runSizes, runSizes]
    cases Size.parse size with
    | error e => rfl
    | ok bytes => simp only [ih]

/-- What a search comes to depends on the tree alone. -/
theorem runGlob_congr (h : FileSystem.SameTree fs fs') (pattern root : Text) (first : Option Text) :
    runGlob fs' pattern root first = { runGlob fs pattern root first with fs := fs' } := by
  rw [runGlob, runGlob, Wildcard.search_eq_of_sameTree h]
  split <;> rfl

/-- Counting sizes does not depend on anything but the command line, the configuration it names
apart; searching does not depend on anything else but the tree.  So whatever the two file systems
hold, the runs come to the same and show the same records. -/
theorem alike_of_alikeBut_configuration (halike : AlikeBut .configuration words words')
    (hread : CommandLine.read words = .ok options)
    (hread' : CommandLine.read words' = .ok options')
    (hcommand : (∃ sizes, options.command = .size sizes) ∨
      (∃ pattern root first, options.command = .glob pattern root first) ∧
        FileSystem.SameTree fs fs') :
    (run fs options).Alike (run fs' options') ∧
      shownRecords options (run fs options) = shownRecords options' (run fs' options') := by
  rcases Options.without_configuration_eq_iff.1 (halike.without_eq hread hread') with
    ⟨hverbosity, hquiet, hcommands⟩
  obtain ⟨o, hrun, hrun'⟩ : ∃ o : Outcome, run fs options = o ∧
      run fs' options' = { o with fs := fs' } := by
    rw [run, run, ← hcommands]
    rcases hcommand with ⟨sizes, hsizes⟩ | ⟨⟨pattern, root, first, hglob⟩, htree⟩
    · rw [hsizes]
      exact ⟨_, rfl, runSizes_congr fs fs' sizes⟩
    · rw [hglob]
      exact ⟨_, rfl, runGlob_congr htree pattern root first⟩
  rw [hrun, hrun']
  refine ⟨⟨rfl, rfl, rfl⟩, ?_⟩
  rw [shownRecords, shownRecords, hverbosity, hquiet]

/-- Two files differ that could be configurations, and the search lists either. -/
theorem alike_of_alikeBut_configuration_of_search :
    let config : Name := ⟨"xtask.toml".toList, by decide⟩
    let fs (contents : String) : FileSystem :=
      FileSystem.fresh.put (config :: FileSystem.fresh.workingDirectory)
        (.file (Text.utf8 contents.toList))
    let words : List Text := ["glob", "*.toml", "--config", "xtask.toml"].map String.toList
    let words' : List Text := ["glob", "*.toml"].map String.toList
    ∃ options options', AlikeBut .configuration words words' ∧
      CommandLine.read words = .ok options ∧ CommandLine.read words' = .ok options' ∧
      (run (fs "[isrs") options).Alike (run (fs "") options') ∧
      shownRecords options (run (fs "[isrs") options) =
        shownRecords options' (run (fs "") options') := by
  intro config fs words words'
  have halike : AlikeBut .configuration words words' := by
    unfold AlikeBut
    decide
  have htree : FileSystem.SameTree (fs "[isrs") (fs "") :=
    FileSystem.sameTree_put_file FileSystem.fresh config _ _ _
  exact ⟨_, _, halike, rfl, rfl, alike_of_alikeBut_configuration halike rfl rfl
    (.inr ⟨⟨_, _, _, rfl⟩, htree⟩)⟩

end KernelTools

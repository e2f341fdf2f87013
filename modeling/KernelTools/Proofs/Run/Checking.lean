import KernelTools.Proofs.Interrupt.Checking
import KernelTools.Proofs.Run.Configuration
import KernelTools.Proofs.Run.Independence

/-!
# What a run that checks reports

A check judges the source and then the include.  When it ends, the run logs an error for each file
that is not up to date, whatever the verbosity; when it does not, because a file that is there cannot
be read, the run logs nothing about either file.

Main results:

- Theorem {lit}`errors_run_of_check`: the errors that a run logs when the check ends.
- Theorem {lit}`records_run_of_check_error`: what it logs when the check does not end.
- Theorem {lit}`check_judges_and_run_reports`: the verdicts of a check, and what a run makes of them.
-/

namespace KernelTools

open CommandLine (Options)
open FileSystem (LeadsNowhere)
open Interrupt (Artifact FileState Freshness Judged TablesError)

variable {fs : FileSystem} {options : Options} {source inclusion : Option Text}
  {loaded : Config.Loaded}

/-! ## Exit codes -/

theorem exitCode_eq_zero_iff {o : Outcome} : o.exitCode = 0 ↔ o.failure = none := by
  rw [Outcome.exitCode]
  cases o.failure <;> simp

theorem exitCode_eq_one {o : Outcome} (h : o.exitCode ≠ 0) : o.exitCode = 1 := by
  rw [Outcome.exitCode] at h ⊢
  split_ifs at h ⊢
  · rfl
  · contradiction

theorem checkFailure_eq_none_iff {result : Except TablesError Freshness} :
    checkFailure result = none ↔ result = .ok ⟨.upToDate, .upToDate⟩ := by
  cases result with
  | error e => simp [checkFailure]
  | ok freshness => simp [checkFailure]

/-! ## Errors in a log -/

/-- The errors among some records. -/
def Log.errors (records : List Log.Record) : List Log.Record :=
  records.filter (·.level = .error)

theorem error_mem_visibleLevels (quiet : Bool) (verbosity : Nat) :
    Log.Level.error ∈ Log.visibleLevels quiet verbosity := by
  unfold Log.visibleLevels
  split <;> simp

/-- Errors are shown whatever the verbosity. -/
theorem errors_shownRecords (options : Options) (o : Outcome) :
    Log.errors (shownRecords options o) = Log.errors o.records := by
  rw [Log.errors, Log.errors, shownRecords_eq_filter, List.filter_filter]
  apply List.filter_congr
  intro record _
  rw [Bool.and_eq_left_iff_imp, decide_eq_true_iff, decide_eq_true_iff]
  intro hlevel
  rw [hlevel]
  exact error_mem_visibleLevels options.quiet options.verbosity

/-- What is to be said about a file that is not up to date: that it is out of date, or missing. -/
def complaints (path : Text) : FileState → List Log.Record
  | .upToDate => []
  | .stale => [⟨.error, isrsTarget, path ++ " is out of date".toList⟩]
  | .missing => [⟨.error, isrsTarget, path ++ " is missing".toList⟩]

theorem errors_stateRecord (path : Text) (state : FileState) :
    Log.errors [stateRecord path state] = complaints path state := by
  cases state <;> rfl

theorem errors_append (records records' : List Log.Record) :
    Log.errors (records ++ records') = Log.errors records ++ Log.errors records' :=
  List.filter_append ..

theorem errors_of_load {named : Option Text} (h : Config.load fs named = .ok loaded) :
    Log.errors loaded.records = [] := by
  obtain ⟨message, hrecords⟩ := exists_records_of_load h
  rw [hrecords]
  rfl

/-! ## Runs that check -/

section

variable (hcommand : options.command = .isrs source inclusion true)
  (hload : Config.load fs options.config = .ok loaded)

include hcommand hload

/-- A run that checks logs an error for each file that is not up to date, the source first. -/
theorem errors_run_of_check {freshness : Freshness}
    (hcheck : Interrupt.check fs (choosePath source loaded.config.source defaultSource)
      (choosePath inclusion loaded.config.inclusion defaultInclusion) = .ok freshness) :
    Log.errors (run fs options).records =
      complaints (choosePath source loaded.config.source defaultSource) freshness.source ++
        complaints (choosePath inclusion loaded.config.inclusion defaultInclusion)
          freshness.inclusion := by
  simp only [run_of_load hcommand hload, if_true, runCheck, hcheck]
  rw [errors_append, errors_of_load hload, List.nil_append, ← List.singleton_append, errors_append,
    errors_stateRecord, errors_stateRecord]

/-- A run that cannot check logs what loading its configuration logged. -/
theorem records_run_of_check_error {e : TablesError}
    (hcheck : Interrupt.check fs (choosePath source loaded.config.source defaultSource)
      (choosePath inclusion loaded.config.inclusion defaultInclusion) = .error e) :
    (run fs options).records = loaded.records := by
  simp only [run_of_load hcommand hload, if_true, runCheck, hcheck, List.append_nil]

theorem failure_run_of_check :
    (run fs options).failure =
      checkFailure (Interrupt.check fs (choosePath source loaded.config.source defaultSource)
        (choosePath inclusion loaded.config.inclusion defaultInclusion)) := by
  cases worksOn_of_load hcommand hload with
  | checks _ hfailure => exact hfailure

end

/-- How a run that checks two paths ends, and the errors that it shows. -/
structure Reports (fs : FileSystem) (options : Options) (sourcePath inclusionPath : Text) :
    Prop where
  succeeds : (run fs options).exitCode = 0 ↔
    Interrupt.check fs sourcePath inclusionPath = .ok ⟨.upToDate, .upToDate⟩
  fails : (run fs options).exitCode ≠ 0 → (run fs options).exitCode = 1
  ended : ∀ freshness, Interrupt.check fs sourcePath inclusionPath = .ok freshness →
    Log.errors (shownRecords options (run fs options)) =
      complaints sourcePath freshness.source ++ complaints inclusionPath freshness.inclusion
  failed : ∀ e, Interrupt.check fs sourcePath inclusionPath = .error e →
    ∃ message, (run fs options).records = [⟨.debug, Config.logTarget, message⟩]

theorem reports_of_load (hcommand : options.command = .isrs source inclusion true)
    (hload : Config.load fs options.config = .ok loaded) :
    Reports fs options (choosePath source loaded.config.source defaultSource)
      (choosePath inclusion loaded.config.inclusion defaultInclusion) := by
  refine ⟨?_, exitCode_eq_one, ?_, ?_⟩
  · rw [exitCode_eq_zero_iff, failure_run_of_check hcommand hload, checkFailure_eq_none_iff]
  · intro freshness hcheck
    rw [errors_shownRecords]
    exact errors_run_of_check hcommand hload hcheck
  · intro e hcheck
    rw [records_run_of_check_error hcommand hload hcheck]
    exact exists_records_of_load hload

/-- A check judges the source first and then the include: up to date and stale are files that can be
read, a missing one is a path that leads nowhere, and any other trouble with reading is an error for
that path.  A run that checks succeeds when both are up to date; otherwise it fails, and it shows an
error for each file that is not, or none when one could not be judged. -/
theorem check_judges_and_run_reports (fs : FileSystem) :
    (∀ path, fs.read path = .error .notFound ↔ LeadsNowhere fs path) ∧
      (∀ sourcePath inclusionPath freshness,
        Interrupt.check fs sourcePath inclusionPath = .ok freshness ↔
          Judged fs sourcePath Artifact.cSource.bytes (.ok freshness.source) ∧
            Judged fs inclusionPath Artifact.asmInclude.bytes (.ok freshness.inclusion)) ∧
      (∀ sourcePath inclusionPath e,
        Interrupt.check fs sourcePath inclusionPath = .error e ↔
          Judged fs sourcePath Artifact.cSource.bytes (.error e) ∨
            (∃ state, Judged fs sourcePath Artifact.cSource.bytes (.ok state)) ∧
              Judged fs inclusionPath Artifact.asmInclude.bytes (.error e)) ∧
      ∀ words options source inclusion loaded,
        CommandLine.read words = .ok options →
        options.command = .isrs source inclusion true →
        Config.load fs options.config = .ok loaded →
        Reports fs options (choosePath source loaded.config.source defaultSource)
          (choosePath inclusion loaded.config.inclusion defaultInclusion) := by
  refine ⟨fun path => FileSystem.read_eq_notFound_iff, ?_, ?_, ?_⟩
  · intro sourcePath inclusionPath freshness
    exact Interrupt.check_eq_ok_iff
  · intro sourcePath inclusionPath e
    exact Interrupt.check_eq_error_iff
  · intro words options source inclusion loaded _ hcommand hload
    exact reports_of_load hcommand hload

/-- In a directory with nothing in it, two names are complained about; but a directory in the place
of the source cannot be judged, and nothing is said about the include. -/
theorem check_judges_and_run_reports_in_fresh :
    let fs := FileSystem.fresh
    let words (source : String) : List Text :=
      ["isrs", "--check", "--source", source, "--include", "isrs.inc"].map String.toList
    (∃ options, CommandLine.read (words "isrs.c") = .ok options ∧ (run fs options).exitCode = 1 ∧
      Log.errors (shownRecords options (run fs options)) =
        complaints "isrs.c".toList .missing ++ complaints "isrs.inc".toList .missing) ∧
      ∃ options, CommandLine.read (words ".") = .ok options ∧ (run fs options).exitCode = 1 ∧
        ∃ message, (run fs options).records = [⟨.debug, Config.logTarget, message⟩] := by
  intro fs words
  have hdir : fs.nodeAt fs.workingDirectory = some .directory := by decide +kernel
  have hmissing (name : Name) (hnone : fs.nodeAt (name :: fs.workingDirectory) = none)
      (expected : Bytes) : Judged fs name.text expected (.ok .missing) :=
    .missing (FileSystem.read_eq_notFound_iff.2 (FileSystem.leadsNowhere_name hdir hnone))
  have hsource : Judged fs "isrs.c".toList Artifact.cSource.bytes (.ok .missing) :=
    hmissing ⟨"isrs.c".toList, by decide⟩ (by decide +kernel) _
  have hinclusion : Judged fs "isrs.inc".toList Artifact.asmInclude.bytes (.ok .missing) :=
    hmissing ⟨"isrs.inc".toList, by decide⟩ (by decide +kernel) _
  have hunreadable : Judged fs ".".toList Artifact.cSource.bytes
      (.error (.cannotRead ".".toList .isADirectory)) := by
    have hlocate : fs.locate .use ".".toList = .ok (.present fs.workingDirectory .directory) :=
      FileSystem.locate_eq_ok_iff.2 ⟨by decide, by decide, by decide, .here (.stop hdir _)⟩
    exact .unreadable (by simp only [FileSystem.read, hlocate]) (by decide)
  have hdefault : fs.foundAt? (⟨"xtask.toml".toList, by decide⟩ : Name).text = none :=
    FileSystem.foundAt?_name_eq_none hdir (by decide +kernel)
  obtain ⟨loaded, hload, -⟩ : ∃ loaded, Config.load fs none = .ok loaded ∧
      loaded.config = Config.empty := by
    exact Config.exists_load_eq_ok_iff.2 (.nothing (.nowhere hdefault))
  obtain ⟨-, hok, herror, hrun⟩ := check_judges_and_run_reports fs
  constructor
  · have hreports := hrun (words "isrs.c") _ _ _ loaded rfl rfl hload
    have hcheck := (hok _ _ ⟨.missing, .missing⟩).2 ⟨hsource, hinclusion⟩
    refine ⟨_, rfl, hreports.fails fun hzero => ?_, hreports.ended _ hcheck⟩
    cases hcheck.symm.trans (hreports.succeeds.1 hzero)
  · have hreports := hrun (words ".") _ _ _ loaded rfl rfl hload
    have hcheck := (herror _ "isrs.inc".toList _).2 (.inl hunreadable)
    refine ⟨_, rfl, hreports.fails fun hzero => ?_, hreports.failed _ hcheck⟩
    cases hcheck.symm.trans (hreports.succeeds.1 hzero)

end KernelTools

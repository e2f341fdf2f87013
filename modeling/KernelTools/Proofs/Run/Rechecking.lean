import KernelTools.Proofs.CommandLine.CheckFlag
import KernelTools.Proofs.Config.Loading
import KernelTools.Proofs.Interrupt.Generation
import KernelTools.Run

/-!
# Checking after a run that generated

A run that generates the tables may write into its own configuration, or bring one about: a target
may be the configuration file, under whatever name, or the default file that was not there before.
So the run that checks afterwards need not see the configuration that the first run saw.  It does
unless one of the two targets is what the configuration is now read from; and then it fails, since
neither artifact is a document.

Main results:

- Theorem {lit}`parse_artifact`: no artifact is a configuration.
- Theorem {lit}`recheck_after_run`: what the same command line with the flag to check comes to after
  a successful run.
-/

namespace KernelTools

open CommandLine (Flag Options)
open Interrupt (Artifact generate generated)
open FileSystem (Rewrites)

variable {fs : FileSystem} {configPath source inclusion : Option Text}
  {sourcePath inclusionPath : Text} {sourceLoc inclusionLoc : Location} {loaded : Config.Loaded}

/-! ## Artifacts as configurations -/

/-- An artifact begins with a sign that no document begins with. -/
theorem exists_cons_of_text (a : Artifact) :
    ∃ c rest, a.text = c :: rest ∧ Toml.canBegin c = false := by
  cases a with
  | cSource => exact ⟨'/', _, rfl, by decide⟩
  | asmInclude => exact ⟨';', _, rfl, by decide⟩

/-- No artifact is a configuration. -/
theorem parse_artifact (a : Artifact) : Config.parse a.text = none := by
  rcases exists_cons_of_text a with ⟨c, rest, htext, hc⟩
  rw [Config.parse, htext, Toml.readDocument_eq_none hc]
  rfl

/-! ## The run that generates -/

/-- A run that generates succeeds when the configuration loads and the generation succeeds, and
leaves what the generation leaves. -/
theorem exists_loaded_of_exitCode
    (h : (runIsrs fs configPath source inclusion false).exitCode = 0) :
    ∃ loaded, Config.load fs configPath = .ok loaded ∧
      let generation := generate fs (choosePath source loaded.config.source defaultSource)
        (choosePath inclusion loaded.config.inclusion defaultInclusion)
      generation.result = .ok () ∧
        (runIsrs fs configPath source inclusion false).fs = generation.fs := by
  unfold runIsrs at h ⊢
  split at h
  · contradiction
  · next loaded hload =>
    refine ⟨loaded, hload, ?_⟩
    simp only [Bool.false_eq_true, if_false, runGenerate] at h ⊢
    split at h
    · contradiction
    · next hresult => exact ⟨hresult, rfl⟩

/-! ## The run that checks -/

/-- Loading a configuration logs where it comes from, for debugging, and no more. -/
theorem exists_records_of_load (h : Config.load fs configPath = .ok loaded) :
    ∃ message, loaded.records = [⟨.debug, Config.logTarget, message⟩] := by
  unfold Config.load at h
  split at h
  · cases h
    exact ⟨_, rfl⟩
  · split at h
    · contradiction
    · cases h
      exact ⟨_, rfl⟩

/-- Checking changes nothing. -/
theorem runCheck_fs (fs : FileSystem) (sourcePath inclusionPath : Text) :
    (runCheck fs sourcePath inclusionPath).fs = fs := by
  unfold runCheck
  split <;> rfl

theorem runIsrs_check_fs (fs : FileSystem) (configPath source inclusion : Option Text) :
    (runIsrs fs configPath source inclusion true).fs = fs := by
  unfold runIsrs
  split
  · rfl
  · simp only [if_true, runCheck_fs]

/-- A run that checks fails when the configuration cannot be loaded. -/
theorem exitCode_of_load_error {e : Config.LoadError} (h : Config.load fs configPath = .error e)
    (check : Bool) : (runIsrs fs configPath source inclusion check).exitCode = 1 := by
  simp only [runIsrs, h]
  rfl

/-- A run that checks succeeds when both files are up to date, and then logs no error. -/
theorem runIsrs_check_of_upToDate (hload : Config.load fs configPath = .ok loaded)
    (hcheck : Interrupt.check fs (choosePath source loaded.config.source defaultSource)
      (choosePath inclusion loaded.config.inclusion defaultInclusion) =
        .ok ⟨.upToDate, .upToDate⟩) :
    (runIsrs fs configPath source inclusion true).exitCode = 0 ∧
      ∀ record ∈ (runIsrs fs configPath source inclusion true).records, record.level ≠ .error := by
  simp only [runIsrs, hload, if_true, runCheck, hcheck]
  refine ⟨rfl, ?_⟩
  obtain ⟨message, hrecords⟩ := exists_records_of_load hload
  intro record hrecord
  rw [hrecords, List.mem_append, List.mem_singleton, List.mem_pair] at hrecord
  rcases hrecord with rfl | rfl | rfl
  · simp
  · simp [stateRecord]
  · simp [stateRecord]

/-- A run that checks fails when a file is stale or missing. -/
theorem exitCode_of_not_upToDate {freshness : Interrupt.Freshness}
    (hload : Config.load fs configPath = .ok loaded)
    (hcheck : Interrupt.check fs (choosePath source loaded.config.source defaultSource)
      (choosePath inclusion loaded.config.inclusion defaultInclusion) = .ok freshness)
    (hfreshness : freshness.isUpToDate = false) :
    (runIsrs fs configPath source inclusion true).exitCode = 1 := by
  simp only [runIsrs, hload, if_true, runCheck, hcheck, hfreshness]
  rfl

/-! ## One after the other -/

/-- Two targets are different files, and the configuration is read from neither of them. -/
structure TargetsApart (fs : FileSystem) (configPath : Option Text)
    (sourceLoc inclusionLoc : Location) : Prop where
  source_ne_inclusion : sourceLoc ≠ inclusionLoc
  config_ne_source : Config.location? fs configPath ≠ some sourceLoc
  config_ne_inclusion : Config.location? fs configPath ≠ some inclusionLoc

/-- After a generation the configuration is unchanged, or it is no configuration any more. -/
theorem load_generated (configPath : Option Text) (hsource : fs.frameAt sourceLoc = none)
    (hinclusion : fs.frameAt inclusionLoc = none) :
    let written := generated fs sourceLoc inclusionLoc
    (Config.location? written configPath ≠ some sourceLoc →
      Config.location? written configPath ≠ some inclusionLoc →
        Config.load written configPath = Config.load fs configPath) ∧
      ∀ loc ∈ [sourceLoc, inclusionLoc], Config.location? written configPath = some loc →
        ∃ path, Config.load written configPath = .error (.malformed path) := by
  intro written
  constructor
  · intro hne₁ hne₂
    apply Config.load_eq_of_rewrites (Interrupt.rewrites_generated hsource hinclusion)
    intro loc hloc
    rcases List.mem_pair.1 hloc with rfl | rfl
    · exact hne₁
    · exact hne₂
  · intro loc hloc hlocation
    obtain ⟨a, hfile⟩ : ∃ a : Artifact, written.nodeAt loc = some (.file a.bytes) := by
      rw [(Interrupt.generated_spec hsource hinclusion).2]
      split_ifs with h₁ h₂
      · exact ⟨_, rfl⟩
      · exact ⟨_, rfl⟩
      · simp [h₁, h₂] at hloc
    exact Config.load_eq_malformed hlocation hfile (parse_artifact a)

/-- Checking the two paths of a generation finds both files up to date just when they are two. -/
theorem check_generated (hsource : fs.fileOf? sourcePath = some sourceLoc)
    (hinclusion : fs.fileOf? inclusionPath = some inclusionLoc) :
    Interrupt.check (generated fs sourceLoc inclusionLoc) sourcePath inclusionPath =
      .ok ⟨if sourceLoc = inclusionLoc then .stale else .upToDate, .upToDate⟩ := by
  obtain ⟨hreadInclusion, hreadSource⟩ := Interrupt.read_after_generate hsource hinclusion
  rw [Interrupt.generate_of_fileOf? hsource hinclusion] at hreadInclusion hreadSource
  have hcheck := Interrupt.check_of_read hreadSource hreadInclusion
  rw [if_pos rfl] at hcheck
  rw [hcheck]
  by_cases hloc : sourceLoc = inclusionLoc
  · rw [if_pos hloc, if_pos hloc, if_neg Interrupt.cSource_bytes_ne.symm]
  · rw [if_neg hloc, if_neg hloc, if_pos rfl]

/-- Checking with the settings of a successful run to generate succeeds just when the targets lie
apart. -/
theorem runIsrs_check_generated (hload : Config.load fs configPath = .ok loaded)
    (hsource : fs.fileOf? (choosePath source loaded.config.source defaultSource) = some sourceLoc)
    (hinclusion : fs.fileOf? (choosePath inclusion loaded.config.inclusion defaultInclusion) =
      some inclusionLoc) :
    let written := generated fs sourceLoc inclusionLoc
    let recheck := runIsrs written configPath source inclusion true
    (TargetsApart written configPath sourceLoc inclusionLoc →
      recheck.exitCode = 0 ∧ ∀ record ∈ recheck.records, record.level ≠ .error) ∧
      (¬TargetsApart written configPath sourceLoc inclusionLoc → recheck.exitCode = 1) := by
  intro written recheck
  have hcheck := check_generated hsource hinclusion
  obtain ⟨hkept, hlost⟩ := load_generated configPath
    (FileSystem.frameAt_of_fileOf? hsource) (FileSystem.frameAt_of_fileOf? hinclusion)
  constructor
  · intro hapart
    have hload' := (hkept hapart.config_ne_source hapart.config_ne_inclusion).trans hload
    rw [if_neg hapart.source_ne_inclusion] at hcheck
    exact runIsrs_check_of_upToDate hload' hcheck
  · intro hapart
    by_cases hlocation : ∃ loc ∈ [sourceLoc, inclusionLoc],
        Config.location? written configPath = some loc
    · rcases hlocation with ⟨loc, hloc, hlocation⟩
      rcases hlost loc hloc hlocation with ⟨path, hmalformed⟩
      exact exitCode_of_load_error hmalformed true
    · have hne₁ : Config.location? written configPath ≠ some sourceLoc :=
        fun h => hlocation ⟨sourceLoc, by simp, h⟩
      have hne₂ : Config.location? written configPath ≠ some inclusionLoc :=
        fun h => hlocation ⟨inclusionLoc, by simp, h⟩
      have hsame : sourceLoc = inclusionLoc := by
        by_contra hne
        exact hapart ⟨hne, hne₁, hne₂⟩
      rw [if_pos hsame] at hcheck
      exact exitCode_of_not_upToDate ((hkept hne₁ hne₂).trans hload) hcheck rfl

theorem run_of_isrs {options : Options} {check : Bool}
    (h : options.command = .isrs source inclusion check) :
    run fs options = runIsrs fs options.config source inclusion check := by
  rw [run, h]

/-! ## Names in a directory without a configuration -/

section

variable {source inclusion default : Name}
  (hdir : fs.nodeAt fs.workingDirectory = some .directory)
  (hdefault : default.text = Config.defaultPath)
  (hnone : fs.nodeAt (default :: fs.workingDirectory) = none)
  (hsource : fs.frameAt (source :: fs.workingDirectory) = none)
  (hinclusion : fs.frameAt (inclusion :: fs.workingDirectory) = none)

include hdir hdefault hnone hsource hinclusion

/-- Any two names will do for a run that generates. -/
theorem runIsrs_of_names :
    let outcome := runIsrs fs none (some source.text) (some inclusion.text) false
    outcome.exitCode = 0 ∧
      outcome.fs =
        generated fs (source :: fs.workingDirectory) (inclusion :: fs.workingDirectory) := by
  have hfound : fs.foundAt? Config.defaultPath = none := by
    rw [← hdefault]
    exact FileSystem.foundAt?_name_eq_none hdir hnone
  have hgenerate := Interrupt.generate_of_fileOf? (FileSystem.fileOf?_name hdir hsource)
    (FileSystem.fileOf?_name hdir hinclusion)
  simp only [runIsrs, Config.load, Config.chosenPath_none, hfound]
  simp only [Option.map_none, Bool.false_eq_true, if_false, choosePath, Option.some_or,
    Option.getD_some, runGenerate, hgenerate]
  exact ⟨rfl, trivial⟩

/-- Afterwards both names lead to files of their own. -/
theorem foundAt?_of_names :
    let written := (runIsrs fs none (some source.text) (some inclusion.text) false).fs
    written.foundAt? source.text = some (source :: fs.workingDirectory) ∧
      written.foundAt? inclusion.text = some (inclusion :: fs.workingDirectory) := by
  intro written
  have hwritten : written = _ := (runIsrs_of_names hdir hdefault hnone hsource hinclusion).2
  have hrewrites := Interrupt.rewrites_generated hsource hinclusion
  rw [hwritten]
  constructor
  · exact hrewrites.foundAt?_of_fileOf? (FileSystem.fileOf?_name hdir hsource) (by simp)
  · exact hrewrites.foundAt?_of_fileOf? (FileSystem.fileOf?_name hdir hinclusion) (by simp)

/-- Afterwards the default configuration is found when a target bears its name. -/
theorem location?_of_names :
    Config.location? (runIsrs fs none (some source.text) (some inclusion.text) false).fs none =
      if default = source ∨ default = inclusion then some (default :: fs.workingDirectory)
      else none := by
  rw [(runIsrs_of_names hdir hdefault hnone hsource hinclusion).2, Config.location?_eq,
    Option.getD_none, ← hdefault]
  have hrewrites := Interrupt.rewrites_generated hsource hinclusion
  by_cases hbears : default = source ∨ default = inclusion
  · rw [if_pos hbears]
    have hfile := FileSystem.fileOf?_name hdir (FileSystem.frameAt_eq_none_iff.2 (.inl hnone))
    exact hrewrites.foundAt?_of_fileOf? hfile (by simpa using hbears)
  · rw [if_neg hbears]
    apply FileSystem.foundAt?_name_eq_none
    · rw [← hrewrites.workingDirectory_eq]
      exact hrewrites.sameFrame.nodeAt_eq hdir (by simp)
    · rw [← hrewrites.workingDirectory_eq, hrewrites.nodeAt_eq _ (by simpa using hbears), hnone]

/-- The targets lie apart when the names differ and neither is that of the default configuration. -/
theorem targetsApart_of_names_iff :
    TargetsApart (runIsrs fs none (some source.text) (some inclusion.text) false).fs none
        (source :: fs.workingDirectory) (inclusion :: fs.workingDirectory) ↔
      source ≠ inclusion ∧ default ≠ source ∧ default ≠ inclusion := by
  have hlocation := location?_of_names hdir hdefault hnone hsource hinclusion
  constructor
  · rintro ⟨hne, hne₁, hne₂⟩
    rw [hlocation] at hne₁ hne₂
    refine ⟨by simpa using hne, ?_, ?_⟩
    · rintro rfl
      simp at hne₁
    · rintro rfl
      simp at hne₂
  · rintro ⟨hne, hne₁, hne₂⟩
    rw [if_neg (not_or.2 ⟨hne₁, hne₂⟩)] at hlocation
    exact ⟨by simpa using hne, by simp [hlocation], by simp [hlocation]⟩

end

/-- A command line for the tables that was run with success can be run again with the flag to check
put in.  That run changes nothing, and it succeeds without logging an error when the two targets are
different files and the configuration is read from neither of them; otherwise it fails. -/
theorem recheck_after_run {words : List Text} {options : Options}
    (hread : CommandLine.read words = .ok options)
    (hcommand : options.command = .isrs source inclusion false)
    (hrun : (run fs options).exitCode = 0) :
    let written := (run fs options).fs
    ∃ loaded sourceLoc inclusionLoc,
      Config.load fs options.config = .ok loaded ∧
      written.foundAt? (choosePath source loaded.config.source defaultSource) = some sourceLoc ∧
      written.foundAt? (choosePath inclusion loaded.config.inclusion defaultInclusion) =
        some inclusionLoc ∧
      (∃ front back checking, words = front ++ back ∧
        CommandLine.read (front ++ Flag.check.word :: back) = .ok checking) ∧
      ∀ front back checking, words = front ++ back →
        CommandLine.read (front ++ Flag.check.word :: back) = .ok checking →
        let recheck := run written checking
        recheck.fs = written ∧
          ((recheck.exitCode = 0 ∧ ∀ record ∈ recheck.records, record.level ≠ .error) ↔
            TargetsApart written options.config sourceLoc inclusionLoc) ∧
          (¬TargetsApart written options.config sourceLoc inclusionLoc → recheck.exitCode = 1) := by
  intro written
  rw [run_of_isrs hcommand] at hrun
  obtain ⟨loaded, hload, hresult, hfs⟩ := exists_loaded_of_exitCode hrun
  obtain ⟨sourceLoc, inclusionLoc, hsource, hinclusion⟩ :=
    Interrupt.exists_files_of_generate hresult
  have hwritten : written = generated fs sourceLoc inclusionLoc := by
    rw [Interrupt.generate_of_fileOf? hsource hinclusion] at hfs
    exact (congrArg Outcome.fs (run_of_isrs hcommand)).trans hfs
  have hrewrites := Interrupt.rewrites_generated
    (FileSystem.frameAt_of_fileOf? hsource) (FileSystem.frameAt_of_fileOf? hinclusion)
  rw [hwritten]
  refine ⟨loaded, sourceLoc, inclusionLoc, hload, ?_, ?_, ?_, ?_⟩
  · exact hrewrites.foundAt?_of_fileOf? hsource (by simp)
  · exact hrewrites.foundAt?_of_fileOf? hinclusion (by simp)
  · rcases CommandLine.exists_read_insert_check hread hcommand with ⟨front, back, hwords, hchecking⟩
    exact ⟨front, back, options.checked, hwords, hchecking⟩
  · rintro front back checking rfl hchecking
    cases CommandLine.read_insert_check hread hcommand hchecking
    have hrecheck : run (generated fs sourceLoc inclusionLoc) options.checked =
        runIsrs (generated fs sourceLoc inclusionLoc) options.config source inclusion true :=
      run_of_isrs (congrArg CommandLine.Command.checked hcommand)
    rw [hrecheck]
    obtain ⟨hapart, hnot⟩ := runIsrs_check_generated hload hsource hinclusion
    refine ⟨runIsrs_check_fs _ _ _ _, ⟨?_, hapart⟩, hnot⟩
    rintro ⟨hzero, _⟩
    by_contra h
    rw [hnot h] at hzero
    contradiction

/-- In a directory with nothing in it, the check succeeds behind a run that wrote other files, and
fails behind one that made the default configuration. -/
theorem recheck_after_run_in_fresh :
    let fs := FileSystem.fresh
    let target : Name := ⟨"isrs.c".toList, by decide⟩
    let default : Name := ⟨"xtask.toml".toList, by decide⟩
    let inclusion : Name := ⟨"isrs.inc".toList, by decide⟩
    let words (source : Name) (flags : List Text) : List Text :=
      ["isrs".toList] ++ flags ++
        ["--source".toList, source.text, "--include".toList, inclusion.text]
    let options (source : Name) (check : Bool) : Options :=
      ⟨0, false, none, .isrs (some source.text) (some inclusion.text) check⟩
    (∀ source ∈ [target, default],
      CommandLine.read (words source []) = .ok (options source false) ∧
        CommandLine.read (words source [Flag.check.word]) = .ok (options source true) ∧
        (run fs (options source false)).exitCode = 0) ∧
      (run (run fs (options target false)).fs (options target true)).exitCode = 0 ∧
      (run (run fs (options default false)).fs (options default true)).exitCode = 1 := by
  intro fs target default inclusion words options
  have hdir : fs.nodeAt fs.workingDirectory = some .directory := by decide +kernel
  have hdefault : default.text = Config.defaultPath := rfl
  have hnone : fs.nodeAt (default :: fs.workingDirectory) = none := by decide +kernel
  have hinclusion : fs.frameAt (inclusion :: fs.workingDirectory) = none := by decide +kernel
  have hsource : ∀ source ∈ [target, default],
      fs.frameAt (source :: fs.workingDirectory) = none := by decide +kernel
  have hread : ∀ source ∈ [target, default],
      CommandLine.read (words source []) = .ok (options source false) ∧
        CommandLine.read (words source [Flag.check.word]) = .ok (options source true) := by
    decide +kernel
  have hrun : ∀ source ∈ [target, default], (run fs (options source false)).exitCode = 0 :=
    fun source hmem => (runIsrs_of_names hdir hdefault hnone (hsource source hmem) hinclusion).1
  -- Where the targets lie is known, so that only their names are left to compare.
  have hrecheck : ∀ source ∈ [target, default],
      (run (run fs (options source false)).fs (options source true)).exitCode =
        if source ≠ inclusion ∧ default ≠ source ∧ default ≠ inclusion then 0 else 1 := by
    intro source hmem
    obtain ⟨hread₁, hread₂⟩ := hread source hmem
    obtain ⟨loaded, sourceLoc, inclusionLoc, _, hfound₁, hfound₂, _, hall⟩ :=
      recheck_after_run hread₁ rfl (hrun source hmem)
    obtain ⟨_, hiff, hnot⟩ := hall ["isrs".toList] _ _ rfl hread₂
    obtain ⟨hsourceLoc, hinclusionLoc⟩ :=
      foundAt?_of_names hdir hdefault hnone (hsource source hmem) hinclusion
    cases hfound₁.symm.trans hsourceLoc
    cases hfound₂.symm.trans hinclusionLoc
    have hapart :=
      targetsApart_of_names_iff hdir hdefault hnone (hsource source hmem) hinclusion
    split_ifs with hnames
    · exact (hiff.2 (hapart.2 hnames)).1
    · exact hnot (fun h => hnames (hapart.1 h))
  refine ⟨?_, ?_, ?_⟩
  · intro source hmem
    exact ⟨(hread source hmem).1, (hread source hmem).2, hrun source hmem⟩
  · rw [hrecheck target (by simp), if_pos (by decide)]
  · rw [hrecheck default (by simp), if_neg (by decide)]

end KernelTools

import KernelTools.Proofs.FileSystem.WorkingDirectory
import KernelTools.Proofs.Interrupt.Footprint
import KernelTools.Proofs.Run.Rechecking

/-!
# What a call leaves on the disk

A call is a command line given to the program, whatever it says.  Most calls change nothing at all:
those that are refused or ask for help, and those that count sizes, search or check.  The one kind
that writes is a generation whose configuration loads, and all that it touches are the two files
that its paths lead to.

Main results:

- Theorem {lit}`run_fs_cases`: a run changes nothing, or it leaves what its generation leaves.
- Theorem {lit}`fsAfter_eq_or_written`: after any call the file system is what it was, or it differs
  at the two targets of a generation, which are files in directories that were there.
- Theorem {lit}`settled_foldl_fsAfter`: no number of calls takes the working directory away.
-/

namespace KernelTools

open CommandLine (Command Options)
open Interrupt (generate)

variable {configPath source inclusion : Option Text}

/-! ## Commands -/

/-- Counting sizes changes nothing. -/
theorem runSizes_fs (fs : FileSystem) (sizes : List Text) : (runSizes fs sizes).fs = fs := by
  induction sizes with
  | nil => rfl
  | cons size sizes ih =>
    rw [runSizes]
    cases Size.parse size with
    | error e => rfl
    | ok bytes => exact ih

/-- Searching changes nothing. -/
theorem runGlob_fs (fs : FileSystem) (pattern root : Text) (first : Option Text) :
    (runGlob fs pattern root first).fs = fs := by
  unfold runGlob
  split <;> rfl

/-- Generating leaves what the generation leaves, whether or not that succeeded. -/
theorem runGenerate_fs (fs : FileSystem) (sourcePath inclusionPath : Text) :
    (runGenerate fs sourcePath inclusionPath).fs = (generate fs sourcePath inclusionPath).fs := by
  simp only [runGenerate]
  split <;> rfl

/-- A run that generates leaves what its generation leaves; without a configuration it changes
nothing. -/
theorem runIsrs_generate_cases (fs : FileSystem) (configPath source inclusion : Option Text) :
    (runIsrs fs configPath source inclusion false).fs = fs ∨
      ∃ loaded, Config.load fs configPath = .ok loaded ∧
        (runIsrs fs configPath source inclusion false).fs =
          (generate fs (choosePath source loaded.config.source defaultSource)
            (choosePath inclusion loaded.config.inclusion defaultInclusion)).fs := by
  cases hload : Config.load fs configPath with
  | error e => exact .inl (by simp only [runIsrs, hload])
  | ok loaded =>
    refine .inr ⟨loaded, rfl, ?_⟩
    simp only [runIsrs, hload, Bool.false_eq_true, if_false, runGenerate_fs]

/-- Only a command that generates can change anything, and it leaves what its generation leaves. -/
theorem run_fs_cases (fs : FileSystem) (options : Options) :
    (run fs options).fs = fs ∨
      ∃ source inclusion loaded, options.command = .isrs source inclusion false ∧
        Config.load fs options.config = .ok loaded ∧
        (run fs options).fs =
          (generate fs (choosePath source loaded.config.source defaultSource)
            (choosePath inclusion loaded.config.inclusion defaultInclusion)).fs := by
  unfold run
  split
  · next source inclusion check hcommand =>
    cases check with
    | true => exact .inl (runIsrs_check_fs fs options.config source inclusion)
    | false =>
      rcases runIsrs_generate_cases fs options.config source inclusion with
        hsame | ⟨loaded, hload, hgenerated⟩
      · exact .inl hsame
      · exact .inr ⟨source, inclusion, loaded, hcommand, hload, hgenerated⟩
  · next sizes _ => exact .inl (runSizes_fs fs sizes)
  · next pattern root first _ => exact .inl (runGlob_fs fs pattern root first)

/-! ## Calls -/

/-- The file system after the program was called with some words; a command line that is refused, or
answered with help, runs nothing. -/
def fsAfter (fs : FileSystem) (words : List Text) : FileSystem :=
  match CommandLine.read words with
  | .error _ => fs
  | .ok options => (run fs options).fs

/-- A file was written at a location, made in a directory that was there or given new contents; the
location is one that two paths are sent to. -/
structure WrittenAt (fs fs' : FileSystem) (sourcePath inclusionPath : Text) (loc : Location) :
    Prop where
  target : fs.fileOf? sourcePath = some loc ∨ fs.fileOf? inclusionPath = some loc
  parent : ∃ name dir, loc = name :: dir ∧ fs.nodeAt dir = some .directory
  before : fs.nodeAt loc = none ∨ ∃ contents, fs.nodeAt loc = some (.file contents)
  after : ∃ contents, fs'.nodeAt loc = some (.file contents)

/-- A generation leaves every location as it was, or has written a target there. -/
theorem nodeAt_generate_eq_or_writtenAt (fs : FileSystem) (sourcePath inclusionPath : Text)
    (loc : Location) :
    (generate fs sourcePath inclusionPath).fs.nodeAt loc = fs.nodeAt loc ∨
      WrittenAt fs (generate fs sourcePath inclusionPath).fs sourcePath inclusionPath loc := by
  rcases Interrupt.exists_rewrites_of_generate fs sourcePath inclusionPath with
    ⟨locs, hrewrites, htargets⟩
  by_cases hloc : loc ∈ locs
  · have htarget := htargets loc hloc
    refine .inr ⟨htarget, ?_, ?_, hrewrites.exists_file loc hloc⟩
    · rcases htarget with hfile | hfile
      · exact FileSystem.exists_parent_of_fileOf? hfile
      · exact FileSystem.exists_parent_of_fileOf? hfile
    · exact FileSystem.frameAt_eq_none_iff.1 (hrewrites.frameAt_eq_none loc hloc)
  · exact .inl (hrewrites.nodeAt_eq loc hloc)

theorem workingDirectory_generate (fs : FileSystem) (sourcePath inclusionPath : Text) :
    (generate fs sourcePath inclusionPath).fs.workingDirectory = fs.workingDirectory := by
  rcases Interrupt.exists_rewrites_of_generate fs sourcePath inclusionPath with ⟨_, hrewrites, _⟩
  exact hrewrites.workingDirectory_eq.symm

/-- After any call at all the file system is what it was, unless the call asks to generate and its
configuration loads.  Then every location holds what it held, or it is where one of the two paths
leads: there a file was made, in a directory that was there, or got new contents. -/
theorem fsAfter_eq_or_written (fs : FileSystem) (words : List Text) :
    fsAfter fs words = fs ∨
      ∃ options source inclusion loaded,
        CommandLine.read words = .ok options ∧
        options.command = .isrs source inclusion false ∧
        Config.load fs options.config = .ok loaded ∧
        (fsAfter fs words).workingDirectory = fs.workingDirectory ∧
        ∀ loc, (fsAfter fs words).nodeAt loc = fs.nodeAt loc ∨
          WrittenAt fs (fsAfter fs words)
            (choosePath source loaded.config.source defaultSource)
            (choosePath inclusion loaded.config.inclusion defaultInclusion) loc := by
  unfold fsAfter
  cases hread : CommandLine.read words with
  | error refusal => exact .inl rfl
  | ok options =>
    rcases run_fs_cases fs options with
      hsame | ⟨source, inclusion, loaded, hcommand, hload, hgenerated⟩
    · exact .inl hsame
    · refine .inr ⟨options, source, inclusion, loaded, rfl, hcommand, hload, ?_, ?_⟩
      · simp only [hgenerated, workingDirectory_generate]
      · intro loc
        simp only [hgenerated]
        exact nodeAt_generate_eq_or_writtenAt fs _ _ loc

/-! ## The working directory -/

/-- No run takes the working directory away. -/
theorem settled_run {fs : FileSystem} (h : fs.Settled) (options : Options) :
    (run fs options).fs.Settled := by
  rcases run_fs_cases fs options with hsame | ⟨source, inclusion, loaded, -, -, hgenerated⟩
  · rw [hsame]
    exact h
  · obtain ⟨_, hrewrites, -⟩ := Interrupt.exists_rewrites_of_generate fs
      (choosePath source loaded.config.source defaultSource)
      (choosePath inclusion loaded.config.inclusion defaultInclusion)
    rw [hgenerated]
    exact h.of_sameFrame hrewrites.sameFrame

theorem settled_fsAfter {fs : FileSystem} (h : fs.Settled) (words : List Text) :
    (fsAfter fs words).Settled := by
  unfold fsAfter
  split
  · exact h
  · exact settled_run h _

/-- However often the program is called, it finds its working directory. -/
theorem settled_foldl_fsAfter {fs : FileSystem} (h : fs.Settled) (calls : List (List Text)) :
    (calls.foldl fsAfter fs).Settled := by
  induction calls generalizing fs with
  | nil => exact h
  | cons words calls ih => exact ih (settled_fsAfter h words)

end KernelTools

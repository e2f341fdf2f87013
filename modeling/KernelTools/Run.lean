import KernelTools.CommandLine.Reading
import KernelTools.Config
import KernelTools.Interrupt.Tables
import KernelTools.Search
import KernelTools.Size
import KernelTools.Wildcard.Walk

/-!
# Running a command

A run takes the file system and the options to an outcome: the lines it prints, everything it logs,
the failure that ended it, if any, and the file system it leaves.  The verbosity flags have no part
in it; they only choose which records are shown afterwards.

Before it runs a command the program asks which directory it works in.  That fails only when the
directory is gone; it is taken to be there, as {lit}`FileSystem.Settled` says, so asking has no part in a
run.
-/

namespace KernelTools

open CommandLine (Options Command)

/-! ## Failures -/

/-- Why a run failed. -/
inductive Failure
  | config (error : Config.LoadError)
  | generating (error : Interrupt.TablesError)
  | checking (error : Interrupt.TablesError)
  /-- The tables were read, and one of them at least is not what it should be. -/
  | outOfDate
  | size (text : Text) (error : Size.Error)
  | glob (pattern root : Text) (error : Wildcard.SearchError)
deriving DecidableEq

/-- What a failure says, or lies behind what it says. -/
inductive Cause
  | message (text : Text)
  /-- What the operating system has to say about a path. -/
  | io (path : Text) (error : IoError)
  /-- What the reader of the configuration file has to say. -/
  | unreadableText
  /-- What the reader of TOML has to say. -/
  | malformedToml
deriving DecidableEq

/-- A failure and its causes, the outermost first. -/
def Failure.chain : Failure → List Cause
  | .config error =>
    [.message error.message,
      match error with
      | .unreadable _ => .unreadableText
      | .malformed _ => .malformedToml]
  | .generating error =>
    [.message "failed to generate ISR tables".toList, .message error.message,
      .io error.path error.cause]
  | .checking error =>
    [.message "failed to check ISR tables".toList, .message error.message,
      .io error.path error.cause]
  | .outOfDate =>
    [.message "generated ISR tables are out of date; run `cargo xtask isrs`".toList]
  | .size text error =>
    [.message ("failed parsing `".toList ++ text ++ "`".toList), .message error.message]
  | .glob pattern root error =>
    [.message ("failed globbing `".toList ++ pattern ++ "` under ".toList ++ root),
      .message error.message,
      match error with
      | .unlistable dir cause => .io dir cause]

/-! ## Outcomes -/

/-- What a run comes to. -/
structure Outcome where
  lines : List Text
  records : List Log.Record
  failure : Option Failure
  fs : FileSystem

/-- The exit code of a run. -/
def Outcome.exitCode (o : Outcome) : Nat :=
  if o.failure.isSome then 1 else 0

/-! ## Interrupt tables -/

/-- Where the C source goes when nothing else is said. -/
def defaultSource : Text := "src/kernel/arch/i686/isrs_gen.c".toList

/-- Where the assembler include goes when nothing else is said. -/
def defaultInclusion : Text := "src/kernel/arch/i686/isrs_gen.inc".toList

/-- A path from the command line, or else from the configuration, or else the default. -/
def choosePath (given configured : Option Text) (fallback : Text) : Text :=
  (given.or configured).getD fallback

/-- The part of the tools under which table runs log. -/
def isrsTarget : Text := "xtask::isrs".toList

/-- What a check logs about one file. -/
def stateRecord (path : Text) : Interrupt.FileState → Log.Record
  | .upToDate => ⟨.debug, isrsTarget, path ++ " is up to date".toList⟩
  | .stale => ⟨.error, isrsTarget, path ++ " is out of date".toList⟩
  | .missing => ⟨.error, isrsTarget, path ++ " is missing".toList⟩

/-- Checks the tables at two paths. -/
def runCheck (fs : FileSystem) (source inclusion : Text) : Outcome :=
  match Interrupt.check fs source inclusion with
  | .error e => ⟨[], [], some (.checking e), fs⟩
  | .ok freshness =>
    ⟨[], [stateRecord source freshness.source, stateRecord inclusion freshness.inclusion],
      if freshness.isUpToDate then none else some .outOfDate, fs⟩

/-- Generates the tables at two paths. -/
def runGenerate (fs : FileSystem) (source inclusion : Text) : Outcome :=
  let generation := Interrupt.generate fs source inclusion
  match generation.result with
  | .error e => ⟨[], generation.records, some (.generating e), generation.fs⟩
  | .ok () =>
    ⟨[], generation.records ++ [⟨.info, isrsTarget,
      "Generated ".toList ++ source ++ " and ".toList ++ inclusion ++ ".".toList⟩],
      none, generation.fs⟩

/-- Generates or checks the tables, at the paths that the flags, the configuration and the defaults
choose. -/
def runIsrs (fs : FileSystem) (configPath source inclusion : Option Text) (check : Bool) :
    Outcome :=
  match Config.load fs configPath with
  | .error e => ⟨[], [], some (.config e), fs⟩
  | .ok loaded =>
    let sourcePath := choosePath source loaded.config.source defaultSource
    let inclusionPath := choosePath inclusion loaded.config.inclusion defaultInclusion
    let outcome :=
      if check then runCheck fs sourcePath inclusionPath
      else runGenerate fs sourcePath inclusionPath
    { outcome with records := loaded.records ++ outcome.records }

/-! ## Sizes -/

/-- Prints the byte counts of sizes up to the first that has none. -/
def runSizes (fs : FileSystem) : List Text → Outcome
  | [] => ⟨[], [], none, fs⟩
  | size :: sizes =>
    match Size.parse size with
    | .error e => ⟨[], Size.records size, some (.size size e), fs⟩
    | .ok bytes =>
      let rest := runSizes fs sizes
      { rest with
        lines := Text.decimal bytes :: rest.lines
        records := Size.records size ++ rest.records }

/-! ## Wildcards -/

/-- The part of the tools under which wildcard runs log. -/
def globTarget : Text := "xtask::glob".toList

/-- Puts the first path of a name in front, and the warning when there is no such path. -/
def arrange (first : Option Text) (paths : List Text) : List Text × List Log.Record :=
  match first with
  | none => (paths, [])
  | some name =>
    match Search.firstNamedToFront name paths with
    | some arranged => (arranged, [])
    | none =>
      (paths, [⟨.warn, globTarget, "no match named `".toList ++ name ++ "`".toList⟩])

/-- Prints the entries beneath a directory that a pattern matches. -/
def runGlob (fs : FileSystem) (pattern root : Text) (first : Option Text) : Outcome :=
  match Wildcard.search fs.list root (.ofText pattern) with
  | .error e => ⟨[], [], some (.glob pattern root e), fs⟩
  | .ok found =>
    let (lines, warnings) := arrange first found.paths
    ⟨lines, found.records ++ warnings ++ [⟨.debug, globTarget,
      Text.decimal lines.length ++ " matches for `".toList ++ pattern ++ "`".toList⟩], none, fs⟩

/-! ## The whole program -/

/-- Runs a command, from a working directory that is there. -/
def run (fs : FileSystem) (options : Options) : Outcome :=
  match options.command with
  | .isrs source inclusion check => runIsrs fs options.config source inclusion check
  | .size sizes => runSizes fs sizes
  | .glob pattern root first => runGlob fs pattern root first

/-- The records of a run that its options show. -/
def shownRecords (options : Options) (o : Outcome) : List Log.Record :=
  Log.shown (Log.threshold options.quiet options.verbosity) o.records

end KernelTools

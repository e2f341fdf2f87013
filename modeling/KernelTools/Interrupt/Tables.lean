import KernelTools.FileSystem.Access
import KernelTools.Interrupt.Artifact
import KernelTools.Log

/-!
# Writing and checking the artifacts

Generation opens both targets before it replaces the contents of either; only a target that is not
there yet is made on opening.  Checking reads both files and changes nothing.
-/

namespace KernelTools.Interrupt

open FileSystem (Handle)

/-! ## Errors -/

/-- Why the artifacts could not be written or checked; each cause names the path it is about. -/
inductive TablesError
  | cannotOpen (path : Text) (cause : IoError)
  | cannotWrite (path : Text) (cause : IoError)
  | cannotRead (path : Text) (cause : IoError)
deriving DecidableEq

/-- The wording of an error, without its cause. -/
def TablesError.message : TablesError → Text
  | .cannotOpen path _ => "failed to open `".toList ++ path ++ "` for writing".toList
  | .cannotWrite path _ => "failed to write `".toList ++ path ++ "`".toList
  | .cannotRead path _ => "failed to read `".toList ++ path ++ "`".toList

/-- The path that an error is about. -/
def TablesError.path : TablesError → Text
  | .cannotOpen path _ => path
  | .cannotWrite path _ => path
  | .cannotRead path _ => path

/-- What lies behind an error. -/
def TablesError.cause : TablesError → IoError
  | .cannotOpen _ cause => cause
  | .cannotWrite _ cause => cause
  | .cannotRead _ cause => cause

/-! ## Generation -/

/-- How a generation ended, what it logged, and the file system it left. -/
structure Generation where
  result : Except TablesError Unit
  records : List Log.Record
  fs : FileSystem

/-- The record of a written artifact. -/
def writtenRecord (artifact : Artifact) (path : Text) : Log.Record :=
  ⟨.debug, "isrgen".toList,
    "wrote ".toList ++ Text.decimal artifact.bytes.length ++ " bytes to ".toList ++ path⟩

/-- Writes the C source and the assembler include to their paths, each replacing what was there. -/
def generate (fs : FileSystem) (sourcePath includePath : Text) : Generation :=
  match fs.openForWriting sourcePath with
  | .error e => ⟨.error (.cannotOpen sourcePath e), [], fs⟩
  | .ok (sourceFile, fs₁) =>
    match fs₁.openForWriting includePath with
    | .error e => ⟨.error (.cannotOpen includePath e), [], fs₁⟩
    | .ok (includeFile, fs₂) =>
      match fs₂.overwrite sourceFile Artifact.cSource.bytes with
      | .error e => ⟨.error (.cannotWrite sourcePath e), [], fs₂⟩
      | .ok fs₃ =>
        match fs₃.overwrite includeFile Artifact.asmInclude.bytes with
        | .error e =>
          ⟨.error (.cannotWrite includePath e), [writtenRecord .cSource sourcePath], fs₃⟩
        | .ok fs₄ =>
          ⟨.ok (),
            [writtenRecord .cSource sourcePath, writtenRecord .asmInclude includePath], fs₄⟩

/-! ## Checking -/

/-- A generated file compared with what it should hold. -/
inductive FileState
  | upToDate
  | stale
  | missing
deriving DecidableEq

/-- The states of both generated files. -/
structure Freshness where
  source : FileState
  inclusion : FileState
deriving DecidableEq

/-- Whether both files hold what they should. -/
def Freshness.isUpToDate (f : Freshness) : Bool :=
  decide (f.source = .upToDate) && decide (f.inclusion = .upToDate)

/-- Compares the file at a path with the contents it should have. -/
def compare (fs : FileSystem) (path : Text) (expected : Bytes) : Except TablesError FileState :=
  match fs.read path with
  | .ok contents => .ok (if contents = expected then .upToDate else .stale)
  | .error .notFound => .ok .missing
  | .error e => .error (.cannotRead path e)

/-- Compares the files at both paths with the artifacts, the C source first. -/
def check (fs : FileSystem) (sourcePath includePath : Text) : Except TablesError Freshness :=
  match compare fs sourcePath Artifact.cSource.bytes with
  | .error e => .error e
  | .ok source =>
    match compare fs includePath Artifact.asmInclude.bytes with
    | .error e => .error e
    | .ok inclusion => .ok ⟨source, inclusion⟩

end KernelTools.Interrupt

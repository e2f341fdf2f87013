import KernelTools.Proofs.FileSystem.Rewriting
import KernelTools.Proofs.Interrupt.Generation

/-!
# How a generation fails

A generation opens two files and then overwrites both, so there are four stages at which it can
fail.  Which one it was is settled by the error and by what could be opened; each leaves a state of
its own.  Opening is where a generation that is to fail may still change something: a source that
was not there is made before the include is found to be unopenable.

Main results:

- Theorem {lit}`Obstructed.failedAt`: what is left when a path cannot be opened or a file cannot be
  overwritten.
- Theorem {lit}`generate_failed_iff`: a generation that does not succeed has failed at exactly one
  of the stages, the one at which it was obstructed.
- Theorem {lit}`fs_of_cannotOpen`: after a failed opening the file system is what it was, or it has
  one empty file more.
-/

namespace KernelTools.FileSystem

variable {fs fs' : FileSystem} {path : Text} {loc : Location}

/-! ## What opening adds -/

/-- Everything that was there is there still, and all that may be new is an empty file where a path
leads. -/
structure GainsEmptyFile (path : Text) (fs fs' : FileSystem) : Prop where
  workingDirectory_eq : fs.workingDirectory = fs'.workingDirectory
  kept : ∀ loc node, fs.nodeAt loc = some node → fs'.nodeAt loc = some node
  gained : ∀ loc node, fs.nodeAt loc = none → fs'.nodeAt loc = some node →
    node = .file [] ∧ fs.fileOf? path = some loc

theorem GainsEmptyFile.refl (path : Text) (fs : FileSystem) : GainsEmptyFile path fs fs := by
  refine ⟨rfl, fun _ _ h => h, ?_⟩
  intro loc node hnone hsome
  rw [hnone] at hsome
  contradiction

/-- Opening a path for writing leaves the file system as it is, or makes the file that the path is
written to. -/
theorem openForWriting_cases {handle : Handle} (h : fs.openForWriting path = .ok (handle, fs')) :
    fs' = fs ∨
      ∃ loc, fs.fileOf? path = some loc ∧ fs.nodeAt loc = none ∧ fs' = fs.put loc (.file []) := by
  cases handle with
  | file loc =>
    rcases openForWriting_eq_file_iff.1 h with ⟨hfile, rfl⟩
    unfold ensureFile
    split
    · exact .inl rfl
    · next hnone => exact .inr ⟨loc, hfile, hnone, rfl⟩
  | nullDevice => exact .inl (openForWriting_eq_nullDevice_iff.1 h).2

/-- Opening a path for writing adds an empty file at most. -/
theorem gainsEmptyFile_of_openForWriting {handle : Handle}
    (h : fs.openForWriting path = .ok (handle, fs')) : GainsEmptyFile path fs fs' := by
  rcases openForWriting_cases h with rfl | ⟨loc, hfile, hnone, rfl⟩
  · exact .refl path fs'
  · have hframe := frameAt_of_fileOf? hfile
    refine ⟨rfl, ?_, ?_⟩
    · intro l node hnode
      have hne : l ≠ loc := by
        rintro rfl
        rw [hnone] at hnode
        contradiction
      rw [nodeAt_put_file hframe, if_neg hne, hnode]
    · intro l node hnode hnode'
      rw [nodeAt_put_file hframe] at hnode'
      split at hnode'
      · next heq =>
        cases hnode'
        exact ⟨rfl, heq ▸ hfile⟩
      · rw [hnode] at hnode'
        contradiction

theorem GainsEmptyFile.sameFrame (h : GainsEmptyFile path fs fs') : SameFrame fs fs' := by
  refine ⟨h.workingDirectory_eq, ?_⟩
  intro l
  cases hnode : fs.nodeAt l with
  | some node => rw [frameAt, frameAt, hnode, h.kept l node hnode]
  | none =>
    rw [frameAt_eq_none_iff.2 (.inl hnode), eq_comm, frameAt_eq_none_iff]
    cases hnode' : fs'.nodeAt l with
    | none => exact .inl rfl
    | some node' =>
      rcases h.gained l node' hnode hnode' with ⟨rfl, -⟩
      exact .inr ⟨[], rfl⟩

/-- What could be read still reads the same. -/
theorem GainsEmptyFile.read_of_ok (h : GainsEmptyFile path fs fs') {other : Text} {contents : Bytes}
    (hread : fs.read other = .ok contents) : fs'.read other = .ok contents := by
  cases hfound : fs.foundAt? other with
  | none =>
    rcases read_of_foundAt?_eq_none hfound with ⟨e, herror⟩
    rw [hread] at herror
    contradiction
  | some l =>
    rcases exists_nodeAt_of_foundAt? hfound with ⟨node, hnode⟩
    have hnode' := h.kept l node hnode
    have hfound' := h.sameFrame.foundAt?_of_eq hfound hnode'
    rw [← hread]
    exact read_congr hfound' hfound (hnode'.trans hnode.symm)

/-- Only the null device cannot be overwritten once it is open. -/
theorem overwrite_eq_error_iff {handle : Handle} {contents : Bytes} {e : IoError} :
    fs.overwrite handle contents = .error e ↔ handle = .nullDevice ∧ e = .invalidInput := by
  cases handle with
  | file loc => simp [overwrite, setLength]
  | nullDevice =>
    simp only [overwrite, setLength, Except.error.injEq, true_and]
    exact eq_comm

end KernelTools.FileSystem

namespace KernelTools.Interrupt

open FileSystem (GainsEmptyFile Handle SameFrame)

variable {fs : FileSystem} {sourcePath includePath : Text} {generation : Generation}

/-! ## Stages -/

/-- What a generation does, one after the other. -/
inductive Stage
  | openingSource
  | openingInclude
  | writingSource
  | writingInclude
deriving DecidableEq

/-- What keeps a generation from going on at a stage: a path that cannot be opened or an open file that
cannot be overwritten, where nothing of that kind came before. -/
inductive Obstructed (fs : FileSystem) (sourcePath includePath : Text) : Stage → Prop
  | openingSource {cause : IoError} (hsource : fs.openForWriting sourcePath = .error cause) :
    Obstructed fs sourcePath includePath .openingSource
  | openingInclude {sourceFile : Handle} {fs₁ : FileSystem} {cause : IoError}
    (hsource : fs.openForWriting sourcePath = .ok (sourceFile, fs₁))
    (hinclude : fs₁.openForWriting includePath = .error cause) :
    Obstructed fs sourcePath includePath .openingInclude
  | writingSource {sourceFile includeFile : Handle} {fs₁ fs₂ : FileSystem} {cause : IoError}
    (hsource : fs.openForWriting sourcePath = .ok (sourceFile, fs₁))
    (hinclude : fs₁.openForWriting includePath = .ok (includeFile, fs₂))
    (hwrite : fs₂.overwrite sourceFile Artifact.cSource.bytes = .error cause) :
    Obstructed fs sourcePath includePath .writingSource
  | writingInclude {sourceFile includeFile : Handle} {fs₁ fs₂ fs₃ : FileSystem} {cause : IoError}
    (hsource : fs.openForWriting sourcePath = .ok (sourceFile, fs₁))
    (hinclude : fs₁.openForWriting includePath = .ok (includeFile, fs₂))
    (hwriteSource : fs₂.overwrite sourceFile Artifact.cSource.bytes = .ok fs₃)
    (hwriteInclude : fs₃.overwrite includeFile Artifact.asmInclude.bytes = .error cause) :
    Obstructed fs sourcePath includePath .writingInclude

/-- A generation from a file system has failed at a stage: what could be done before and what could
not, the error that tells so, and the file system that is left. -/
inductive FailedAt (fs : FileSystem) (sourcePath includePath : Text) (generation : Generation) :
    Stage → Prop
  /-- The source cannot be opened, and nothing at all has changed. -/
  | openingSource {cause : IoError} (hsource : fs.openForWriting sourcePath = .error cause)
    (hresult : generation.result = .error (.cannotOpen sourcePath cause))
    (hfs : generation.fs = fs) : FailedAt fs sourcePath includePath generation .openingSource
  /-- The source is open but the include cannot be opened; the source may be new and is empty
  then. -/
  | openingInclude {sourceFile : Handle} {fs₁ : FileSystem} {cause : IoError}
    (hsource : fs.openForWriting sourcePath = .ok (sourceFile, fs₁))
    (hinclude : fs₁.openForWriting includePath = .error cause)
    (hresult : generation.result = .error (.cannotOpen includePath cause))
    (hfs : GainsEmptyFile sourcePath fs generation.fs) :
    FailedAt fs sourcePath includePath generation .openingInclude
  /-- Both files are open but the source, which is the null device, cannot be emptied; an include
  that was there still holds what it held. -/
  | writingSource {sourceFile includeFile : Handle} {fs₁ fs₂ : FileSystem} {cause : IoError}
    (hsource : fs.openForWriting sourcePath = .ok (sourceFile, fs₁))
    (hinclude : fs₁.openForWriting includePath = .ok (includeFile, fs₂))
    (hwrite : fs₂.overwrite sourceFile Artifact.cSource.bytes = .error cause)
    (hdevice : ∃ loc, fs.locate .create sourcePath = .ok (.present loc .nullDevice))
    (hresult : generation.result = .error (.cannotWrite sourcePath cause))
    (hkept : ∀ contents, fs.read includePath = .ok contents →
      generation.fs.read includePath = .ok contents)
    (hfs : GainsEmptyFile includePath fs generation.fs) :
    FailedAt fs sourcePath includePath generation .writingSource
  /-- The source is written in full but the include, which is the null device, cannot be emptied. -/
  | writingInclude {sourceFile includeFile : Handle} {fs₁ fs₂ fs₃ : FileSystem} {cause : IoError}
    (hsource : fs.openForWriting sourcePath = .ok (sourceFile, fs₁))
    (hinclude : fs₁.openForWriting includePath = .ok (includeFile, fs₂))
    (hwriteSource : fs₂.overwrite sourceFile Artifact.cSource.bytes = .ok fs₃)
    (hwriteInclude : fs₃.overwrite includeFile Artifact.asmInclude.bytes = .error cause)
    (hdevice : ∃ loc, fs₁.locate .create includePath = .ok (.present loc .nullDevice))
    (hresult : generation.result = .error (.cannotWrite includePath cause))
    (hwritten : generation.fs.read sourcePath = .ok Artifact.cSource.bytes) :
    FailedAt fs sourcePath includePath generation .writingInclude

/-- The stage of a failure is settled by what could be opened and written. -/
theorem FailedAt.unique {stage stage' : Stage}
    (h : FailedAt fs sourcePath includePath generation stage)
    (h' : FailedAt fs sourcePath includePath generation stage') : stage = stage' := by
  cases h <;> cases h' <;> grind

/-- What is left when the source was written and the include then was not. -/
theorem read_of_written {fs₁ fs₂ fs₃ : FileSystem} {sourceFile : Handle}
    (hsource : fs.openForWriting sourcePath = .ok (sourceFile, fs₁))
    (hinclude : fs₁.openForWriting includePath = .ok (.nullDevice, fs₂))
    (hwrite : fs₂.overwrite sourceFile Artifact.cSource.bytes = .ok fs₃) :
    fs₃.read sourcePath = .ok Artifact.cSource.bytes := by
  rcases FileSystem.openForWriting_eq_nullDevice_iff.1 hinclude with ⟨-, rfl⟩
  cases sourceFile with
  | nullDevice => contradiction
  | file loc =>
    rcases FileSystem.openForWriting_eq_file_iff.1 hsource with ⟨hfile, rfl⟩
    have hframe := FileSystem.frameAt_of_fileOf? hfile
    have hsame := (SameFrame.refl fs).ensureFile hframe
    rcases FileSystem.exists_file_ensureFile hframe with ⟨contents, hnode⟩
    rw [FileSystem.overwrite_of_file hnode] at hwrite
    cases hwrite
    rw [hsame.frameAt_eq] at hframe
    have hsame' := hsame.put hframe Artifact.cSource.bytes
    rw [hsame'.fileOf?_eq] at hfile
    apply FileSystem.read_of_fileOf? hfile
    rw [FileSystem.nodeAt_put_file hframe, if_pos rfl]

/-- A generation that does not succeed was obstructed at some stage. -/
theorem exists_obstructed_of_generate (h : (generate fs sourcePath includePath).result ≠ .ok ()) :
    ∃ stage, Obstructed fs sourcePath includePath stage := by
  cases hsource : fs.openForWriting sourcePath with
  | error cause => exact ⟨_, .openingSource hsource⟩
  | ok openedSource =>
    cases hinclude : openedSource.2.openForWriting includePath with
    | error cause => exact ⟨_, .openingInclude hsource hinclude⟩
    | ok openedInclude =>
      cases hwriteSource : openedInclude.2.overwrite openedSource.1 Artifact.cSource.bytes with
      | error cause => exact ⟨_, .writingSource hsource hinclude hwriteSource⟩
      | ok fs₃ =>
        cases hwriteInclude : fs₃.overwrite openedInclude.1 Artifact.asmInclude.bytes with
        | error cause => exact ⟨_, .writingInclude hsource hinclude hwriteSource hwriteInclude⟩
        | ok fs₄ =>
          simp only [generate, hsource, hinclude, hwriteSource, hwriteInclude] at h
          exact absurd rfl h

/-- A generation that is obstructed at a stage fails there. -/
theorem Obstructed.failedAt {stage : Stage} (h : Obstructed fs sourcePath includePath stage) :
    FailedAt fs sourcePath includePath (generate fs sourcePath includePath) stage := by
  cases h with
  | openingSource hsource =>
    simp only [generate, hsource]
    exact .openingSource hsource rfl rfl
  | openingInclude hsource hinclude =>
    have hgained := FileSystem.gainsEmptyFile_of_openForWriting hsource
    simp only [generate, hsource, hinclude]
    exact .openingInclude hsource hinclude rfl hgained
  | writingSource hsource hinclude hwrite =>
    obtain ⟨rfl, -⟩ := FileSystem.overwrite_eq_error_iff.1 hwrite
    obtain ⟨hdevice, rfl⟩ := FileSystem.openForWriting_eq_nullDevice_iff.1 hsource
    have hgained := FileSystem.gainsEmptyFile_of_openForWriting hinclude
    simp only [generate, hsource, hinclude, hwrite]
    exact .writingSource hsource hinclude hwrite hdevice rfl
      (fun _ hread => hgained.read_of_ok hread) hgained
  | writingInclude hsource hinclude hwriteSource hwriteInclude =>
    obtain ⟨rfl, -⟩ := FileSystem.overwrite_eq_error_iff.1 hwriteInclude
    have hdevice := (FileSystem.openForWriting_eq_nullDevice_iff.1 hinclude).1
    have hwritten := read_of_written hsource hinclude hwriteSource
    simp only [generate, hsource, hinclude, hwriteSource, hwriteInclude]
    exact .writingInclude hsource hinclude hwriteSource hwriteInclude hdevice rfl hwritten

/-- A stage that has failed was obstructed. -/
theorem FailedAt.obstructed {stage : Stage}
    (h : FailedAt fs sourcePath includePath generation stage) :
    Obstructed fs sourcePath includePath stage := by
  cases h with
  | openingSource hsource => exact .openingSource hsource
  | openingInclude hsource hinclude => exact .openingInclude hsource hinclude
  | writingSource hsource hinclude hwrite => exact .writingSource hsource hinclude hwrite
  | writingInclude hsource hinclude hwriteSource hwriteInclude =>
    exact .writingInclude hsource hinclude hwriteSource hwriteInclude

/-- A generation that does not succeed has failed at exactly one stage, and it fails at a stage just
when something keeps it from going on there: a path that cannot be opened, or an open file that cannot
be overwritten. -/
theorem generate_failed_iff (fs : FileSystem) (sourcePath includePath : Text) :
    ((generate fs sourcePath includePath).result ≠ .ok () ↔
      ∃! stage, FailedAt fs sourcePath includePath (generate fs sourcePath includePath) stage) ∧
    ∀ stage, FailedAt fs sourcePath includePath (generate fs sourcePath includePath) stage ↔
      Obstructed fs sourcePath includePath stage := by
  refine ⟨⟨?_, ?_⟩, fun stage => ⟨FailedAt.obstructed, Obstructed.failedAt⟩⟩
  · intro h
    rcases exists_obstructed_of_generate h with ⟨stage, hstage⟩
    exact ⟨stage, hstage.failedAt, fun _ hother => hother.unique hstage.failedAt⟩
  · rintro ⟨stage, hstage, -⟩ hok
    cases hstage <;> simp_all

/-! ## After a failed opening -/

variable {path : Text} {cause : IoError}

/-- A failed opening comes at one of the first two stages, so what is left is what there was or what
opening the source has made of it. -/
theorem fs_of_cannotOpen_cases
    (h : (generate fs sourcePath includePath).result = .error (.cannotOpen path cause)) :
    (generate fs sourcePath includePath).fs = fs ∨ ∃ sourceFile,
      fs.openForWriting sourcePath = .ok (sourceFile, (generate fs sourcePath includePath).fs) := by
  cases hsource : fs.openForWriting sourcePath with
  | error e => exact .inl (by simp only [generate, hsource])
  | ok openedSource =>
    obtain ⟨sourceFile, fs₁⟩ := openedSource
    cases hinclude : fs₁.openForWriting includePath with
    | error e => exact .inr ⟨sourceFile, by simp only [generate, hsource, hinclude]⟩
    | ok openedInclude =>
      simp only [generate, hsource, hinclude] at h
      split at h
      · cases h
      · split at h <;> cases h

/-- A file that is yet to be made is missing. -/
theorem compare_of_absent {loc : Location} (hfile : fs.fileOf? path = some loc)
    (hnone : fs.nodeAt loc = none) (expected : Bytes) :
    compare fs path expected = .ok .missing := by
  simp only [compare, FileSystem.read_of_fileOf?_absent hfile hnone]

/-- A file that was just made is stale. -/
theorem compare_put_empty {loc : Location} (hfile : fs.fileOf? path = some loc) {expected : Bytes}
    (hne : [] ≠ expected) : compare (fs.put loc (.file [])) path expected = .ok .stale := by
  have hframe := FileSystem.frameAt_of_fileOf? hfile
  have hread : (fs.put loc (.file [])).read path = .ok [] := by
    rw [((SameFrame.refl fs).put hframe []).fileOf?_eq] at hfile
    apply FileSystem.read_of_fileOf? hfile
    rw [FileSystem.nodeAt_put_file hframe, if_pos rfl]
  simp only [compare, hread, if_neg hne]

/-- After a failed opening the file system is what it was, and so is every answer of a check, unless
the source could be opened and was not there: then it is there, it is empty, and a check finds it
stale where it was missing. -/
theorem fs_of_cannotOpen
    (h : (generate fs sourcePath includePath).result = .error (.cannotOpen path cause)) :
    ((generate fs sourcePath includePath).fs = fs ∧
        check (generate fs sourcePath includePath).fs sourcePath includePath =
          check fs sourcePath includePath) ∨
      ∃ loc, fs.fileOf? sourcePath = some loc ∧ fs.nodeAt loc = none ∧
        (generate fs sourcePath includePath).fs = fs.put loc (.file []) ∧
        compare fs sourcePath Artifact.cSource.bytes = .ok .missing ∧
        compare (generate fs sourcePath includePath).fs sourcePath Artifact.cSource.bytes =
          .ok .stale := by
  rcases fs_of_cannotOpen_cases h with hfs | ⟨sourceFile, hsource⟩
  · exact .inl ⟨hfs, by rw [hfs]⟩
  · rcases FileSystem.openForWriting_cases hsource with hfs | ⟨loc, hfile, hnone, hfs⟩
    · exact .inl ⟨hfs, by rw [hfs]⟩
    · have hmissing := compare_of_absent hfile hnone Artifact.cSource.bytes
      have hstale := compare_put_empty hfile (bytes_ne_nil .cSource).symm
      rw [← hfs] at hstale
      exact .inr ⟨loc, hfile, hnone, hfs, hmissing, hstale⟩

/-! ## An include in a directory that is not there -/

section

variable {source gone : Name} (other : Name)
  (hdir : fs.nodeAt fs.workingDirectory = some .directory)
  (hsource : fs.nodeAt (source :: fs.workingDirectory) = none)
  (hgone : fs.nodeAt (gone :: fs.workingDirectory) = none)

include hdir hgone

/-- What lies in a directory that is not there is missing. -/
theorem compare_of_gone (expected : Bytes) :
    compare fs (Path.join gone.text other) expected = .ok .missing := by
  simp only [compare, FileSystem.read, FileSystem.locate_join_of_absent hdir hgone]

/-- The directory stays away when a file of another name is made. -/
theorem gone_of_put (contents : Bytes) (hne : gone ≠ source) :
    let made := fs.put (source :: fs.workingDirectory) (.file contents)
    made.nodeAt made.workingDirectory = some .directory ∧
      made.nodeAt (gone :: made.workingDirectory) = none := by
  intro made
  rw [FileSystem.workingDirectory_put, FileSystem.nodeAt_put, FileSystem.nodeAt_put,
    if_neg (by simp), if_neg (by simpa using hne)]
  exact ⟨hdir, hgone⟩

include hsource

/-- A generation whose include lies in a directory that is not there makes its source all the
same. -/
theorem generate_of_gone (hne : gone ≠ source) :
    generate fs source.text (Path.join gone.text other) =
      ⟨.error (.cannotOpen (Path.join gone.text other) .notFound), [],
        fs.put (source :: fs.workingDirectory) (.file [])⟩ := by
  have hframe := FileSystem.frameAt_eq_none_iff.2 (.inl hsource)
  have hopen : fs.openForWriting source.text = .ok (.file (source :: fs.workingDirectory),
      fs.put (source :: fs.workingDirectory) (.file [])) := by
    refine FileSystem.openForWriting_eq_file_iff.2 ⟨FileSystem.fileOf?_name hdir hframe, ?_⟩
    rw [FileSystem.ensureFile, hsource]
  have hrefused : (fs.put (source :: fs.workingDirectory) (.file [])).openForWriting
      (Path.join gone.text other) = .error .notFound := by
    obtain ⟨hdir', hgone'⟩ := gone_of_put hdir hgone [] hne
    rw [FileSystem.openForWriting, FileSystem.locate_join_of_absent hdir' hgone']
  simp only [generate, hopen, hrefused]

/-- So it leaves a stale source where a check found a missing one before. -/
theorem check_of_gone (hne : gone ≠ source) :
    let inclusion := Path.join gone.text other
    check fs source.text inclusion = .ok ⟨.missing, .missing⟩ ∧
      check (generate fs source.text inclusion).fs source.text inclusion =
        .ok ⟨.stale, .missing⟩ := by
  intro inclusion
  have hfile := FileSystem.fileOf?_name hdir (FileSystem.frameAt_eq_none_iff.2 (.inl hsource))
  have hmissing := compare_of_absent hfile hsource Artifact.cSource.bytes
  have hstale := compare_put_empty hfile (bytes_ne_nil .cSource).symm
  obtain ⟨hdir', hgone'⟩ := gone_of_put hdir hgone [] hne
  have hstill := compare_of_gone other hdir' hgone' Artifact.asmInclude.bytes
  rw [generate_of_gone other hdir hsource hgone hne]
  constructor
  · simp only [check, hmissing, inclusion, compare_of_gone other hdir hgone]
  · simp only [check, hstale, inclusion, hstill]

end

/-- In an empty working directory, with an include in a directory that is not there. -/
theorem fs_of_cannotOpen_of_gone :
    let source : Name := ⟨"isrs.c".toList, by decide⟩
    let gone : Name := ⟨"gone".toList, by decide⟩
    let inclusion := Path.join gone.text ⟨"isrs.inc".toList, by decide⟩
    let fs := FileSystem.fresh
    let left := (generate fs source.text inclusion).fs
    (generate fs source.text inclusion).result = .error (.cannotOpen inclusion .notFound) ∧
      ((left = fs ∧ check left source.text inclusion = check fs source.text inclusion) ∨
        ∃ loc, fs.fileOf? source.text = some loc ∧ fs.nodeAt loc = none ∧
          left = fs.put loc (.file []) ∧
          compare fs source.text Artifact.cSource.bytes = .ok .missing ∧
          compare left source.text Artifact.cSource.bytes = .ok .stale) := by
  intro source gone inclusion fs left
  have hresult : (generate fs source.text inclusion).result =
      .error (.cannotOpen inclusion .notFound) :=
    congrArg Generation.result (generate_of_gone _ (by decide +kernel) (by decide +kernel)
      (by decide +kernel) (by decide))
  exact ⟨hresult, fs_of_cannotOpen hresult⟩

/-- A failed opening can change what a check finds. -/
theorem not_check_eq_of_cannotOpen :
    ¬ ∀ (fs : FileSystem) (sourcePath includePath path : Text) (cause : IoError),
      (generate fs sourcePath includePath).result = .error (.cannotOpen path cause) →
        (generate fs sourcePath includePath).fs = fs ∧
          check (generate fs sourcePath includePath).fs sourcePath includePath =
            check fs sourcePath includePath := by
  intro h
  let source : Name := ⟨"isrs.c".toList, by decide⟩
  let gone : Name := ⟨"gone".toList, by decide⟩
  let other : Name := ⟨"isrs.inc".toList, by decide⟩
  have hdir : FileSystem.fresh.nodeAt FileSystem.fresh.workingDirectory = some .directory := by
    decide +kernel
  have hsource : FileSystem.fresh.nodeAt (source :: FileSystem.fresh.workingDirectory) = none := by
    decide +kernel
  have hgone : FileSystem.fresh.nodeAt (gone :: FileSystem.fresh.workingDirectory) = none := by
    decide +kernel
  have hne : gone ≠ source := by decide
  have hresult := congrArg Generation.result (generate_of_gone other hdir hsource hgone hne)
  rcases check_of_gone other hdir hsource hgone hne with ⟨hbefore, hafter⟩
  have hsame := (h _ _ _ _ _ hresult).2
  rw [hbefore, hafter] at hsame
  contradiction

end KernelTools.Interrupt

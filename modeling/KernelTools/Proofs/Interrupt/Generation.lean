import KernelTools.FileSystem.Editing
import KernelTools.Interrupt.Tables
import KernelTools.Proofs.FileSystem.Rewriting

/-!
# What a generation leaves behind

Both files are opened, and made if need be, before either is overwritten.  By then the two handles
are fixed locations, so all that matters is whether these are the same.  If they are not, both files
hold their artifacts afterwards, whatever they held before; if they are, the second artifact has
replaced the first.

Main results:

- Theorem {lit}`rewrites_generated`: a generation rewrites its two files and no others.
- Theorem {lit}`generate_of_fileOf?`: what a generation does when both paths are sent to files.
- Theorem {lit}`exists_files_of_generate`: a generation succeeds in no other case.
- Theorem {lit}`check_after_generate`: checking afterwards finds both files up to date, unless they
  are one file, which is then the include.
-/

namespace KernelTools.Interrupt

open FileSystem (Rewrites SameFrame)

variable {fs : FileSystem} {sourcePath includePath : Text} {sourceLoc includeLoc : Location}

/-! ## Artifacts -/

/-- The two artifacts differ in their first octet already. -/
theorem cSource_bytes_ne : Artifact.cSource.bytes ≠ Artifact.asmInclude.bytes := by
  intro h
  have hsource : Artifact.cSource.bytes.head? = some 47 := rfl
  have hinclude : Artifact.asmInclude.bytes.head? = some 59 := rfl
  rw [h, hinclude] at hsource
  contradiction

/-- No artifact is empty. -/
theorem bytes_ne_nil (a : Artifact) : a.bytes ≠ [] := by
  intro h
  have hhead : a.bytes.head?.isSome = true := by cases a <;> rfl
  rw [h] at hhead
  contradiction

/-! ## Generation -/

/-- The file system in which a generation has both its files open. -/
def opened (fs : FileSystem) (sourceLoc includeLoc : Location) : FileSystem :=
  (fs.ensureFile sourceLoc).ensureFile includeLoc

/-- The file system that a generation leaves when its files lie at two locations. -/
def generated (fs : FileSystem) (sourceLoc includeLoc : Location) : FileSystem :=
  ((opened fs sourceLoc includeLoc).put sourceLoc (.file Artifact.cSource.bytes)).put includeLoc
    (.file Artifact.asmInclude.bytes)

section

variable (hsource : fs.frameAt sourceLoc = none) (hinclude : fs.frameAt includeLoc = none)

include hsource hinclude

theorem sameFrame_opened : SameFrame fs (opened fs sourceLoc includeLoc) := by
  have hfirst := (SameFrame.refl fs).ensureFile hsource
  rw [hfirst.frameAt_eq] at hinclude
  exact hfirst.ensureFile hinclude

/-- Both files are there once they are opened. -/
theorem exists_files_opened :
    (∃ contents, (opened fs sourceLoc includeLoc).nodeAt sourceLoc = some (.file contents)) ∧
      ∃ contents, (opened fs sourceLoc includeLoc).nodeAt includeLoc = some (.file contents) := by
  have hfirst := (SameFrame.refl fs).ensureFile hsource
  rw [hfirst.frameAt_eq] at hinclude
  rcases FileSystem.exists_file_ensureFile hsource with ⟨contents, hfile⟩
  constructor
  · exact ⟨contents, FileSystem.nodeAt_ensureFile_of_some hinclude hfile⟩
  · exact FileSystem.exists_file_ensureFile hinclude

/-- A generation changes files only, and each of its two files holds what was written there last. -/
theorem generated_spec :
    SameFrame fs (generated fs sourceLoc includeLoc) ∧
      ∀ loc, (generated fs sourceLoc includeLoc).nodeAt loc =
        if loc = includeLoc then some (.file Artifact.asmInclude.bytes)
        else if loc = sourceLoc then some (.file Artifact.cSource.bytes)
        else (opened fs sourceLoc includeLoc).nodeAt loc := by
  have hopened := sameFrame_opened hsource hinclude
  rw [hopened.frameAt_eq] at hsource hinclude
  have hwritten := hopened.put hsource Artifact.cSource.bytes
  have hinclude' : ((opened fs sourceLoc includeLoc).put sourceLoc
      (.file Artifact.cSource.bytes)).frameAt includeLoc = none := by
    rw [← hwritten.frameAt_eq, hopened.frameAt_eq, hinclude]
  refine ⟨hwritten.put hinclude' Artifact.asmInclude.bytes, ?_⟩
  intro loc
  rw [generated, FileSystem.nodeAt_put_file hinclude', FileSystem.nodeAt_put_file hsource]

/-- A generation rewrites its two files and no others. -/
theorem rewrites_generated :
    Rewrites [sourceLoc, includeLoc] fs (generated fs sourceLoc includeLoc) := by
  obtain ⟨hframe, hnodeAt⟩ := generated_spec hsource hinclude
  refine ⟨hframe.workingDirectory_eq, ?_, ?_, ?_⟩
  · intro loc hloc
    rw [List.mem_pair, not_or] at hloc
    have hinclude' := hinclude
    rw [((SameFrame.refl fs).ensureFile hsource).frameAt_eq] at hinclude'
    rw [hnodeAt, if_neg hloc.2, if_neg hloc.1, opened,
      FileSystem.nodeAt_ensureFile_of_ne hinclude' hloc.2,
      FileSystem.nodeAt_ensureFile_of_ne hsource hloc.1]
  · simp [hsource, hinclude]
  · intro loc hloc
    rw [hnodeAt]
    split_ifs with h₁ h₂
    · exact ⟨_, rfl⟩
    · exact ⟨_, rfl⟩
    · simp [h₁, h₂] at hloc

end

/-- What a generation does when both paths are sent to files, be they there or not. -/
theorem generate_of_fileOf? (hsource : fs.fileOf? sourcePath = some sourceLoc)
    (hinclude : fs.fileOf? includePath = some includeLoc) :
    generate fs sourcePath includePath =
      ⟨.ok (), [writtenRecord .cSource sourcePath, writtenRecord .asmInclude includePath],
        generated fs sourceLoc includeLoc⟩ := by
  have hsourceFrame := FileSystem.frameAt_of_fileOf? hsource
  have hincludeFrame := FileSystem.frameAt_of_fileOf? hinclude
  have hopenSource : fs.openForWriting sourcePath =
      .ok (.file sourceLoc, fs.ensureFile sourceLoc) :=
    FileSystem.openForWriting_eq_file_iff.2 ⟨hsource, rfl⟩
  -- The first opening may make a file, but does not send the second path elsewhere.
  have hopenInclude : (fs.ensureFile sourceLoc).openForWriting includePath =
      .ok (.file includeLoc, opened fs sourceLoc includeLoc) := by
    rw [((SameFrame.refl fs).ensureFile hsourceFrame).fileOf?_eq] at hinclude
    exact FileSystem.openForWriting_eq_file_iff.2 ⟨hinclude, rfl⟩
  have hopened := sameFrame_opened hsourceFrame hincludeFrame
  obtain ⟨⟨oldSource, hsourceFile⟩, ⟨oldInclude, hincludeFile⟩⟩ :=
    exists_files_opened hsourceFrame hincludeFrame
  have hwriteSource := FileSystem.overwrite_of_file hsourceFile Artifact.cSource.bytes
  obtain ⟨contents, hfile⟩ : ∃ contents, ((opened fs sourceLoc includeLoc).put sourceLoc
      (.file Artifact.cSource.bytes)).nodeAt includeLoc = some (.file contents) := by
    rw [hopened.frameAt_eq] at hsourceFrame
    rw [FileSystem.nodeAt_put_file hsourceFrame]
    split
    · exact ⟨_, rfl⟩
    · exact ⟨oldInclude, hincludeFile⟩
  have hwriteInclude := FileSystem.overwrite_of_file hfile Artifact.asmInclude.bytes
  simp only [generate, hopenSource, hopenInclude, hwriteSource, hwriteInclude, generated]

/-- A generation succeeds only when both paths are sent to files. -/
theorem exists_files_of_generate (h : (generate fs sourcePath includePath).result = .ok ()) :
    ∃ sourceLoc includeLoc, fs.fileOf? sourcePath = some sourceLoc ∧
      fs.fileOf? includePath = some includeLoc := by
  unfold generate at h
  split at h
  · contradiction
  · next sourceFile fs₁ hopenSource =>
    split at h
    · contradiction
    · next includeFile fs₂ hopenInclude =>
      cases sourceFile with
      | nullDevice => contradiction
      | file sourceLoc =>
        rcases FileSystem.openForWriting_eq_file_iff.1 hopenSource with ⟨hsource, rfl⟩
        cases includeFile with
        | nullDevice =>
          split at h <;> contradiction
        | file includeLoc =>
          have hframe := (SameFrame.refl fs).ensureFile (FileSystem.frameAt_of_fileOf? hsource)
          have hinclude := (FileSystem.openForWriting_eq_file_iff.1 hopenInclude).1
          rw [← hframe.fileOf?_eq] at hinclude
          exact ⟨sourceLoc, includeLoc, hsource, hinclude⟩

/-! ## Checking afterwards -/

/-- Checking two paths that can be read compares what was read. -/
theorem check_of_read {source inclusion : Bytes} (hsource : fs.read sourcePath = .ok source)
    (hinclude : fs.read includePath = .ok inclusion) :
    check fs sourcePath includePath =
      .ok ⟨if source = Artifact.cSource.bytes then .upToDate else .stale,
        if inclusion = Artifact.asmInclude.bytes then .upToDate else .stale⟩ := by
  simp only [check, compare, hsource, hinclude]

/-- What the two paths read after a generation. -/
theorem read_after_generate (hsource : fs.fileOf? sourcePath = some sourceLoc)
    (hinclude : fs.fileOf? includePath = some includeLoc) :
    (generate fs sourcePath includePath).fs.read includePath = .ok Artifact.asmInclude.bytes ∧
      (generate fs sourcePath includePath).fs.read sourcePath =
        .ok (if sourceLoc = includeLoc then Artifact.asmInclude.bytes
          else Artifact.cSource.bytes) := by
  rw [generate_of_fileOf? hsource hinclude]
  obtain ⟨hframe, hnodeAt⟩ := generated_spec (FileSystem.frameAt_of_fileOf? hsource)
    (FileSystem.frameAt_of_fileOf? hinclude)
  rw [hframe.fileOf?_eq] at hsource hinclude
  constructor
  · apply FileSystem.read_of_fileOf? hinclude
    rw [hnodeAt, if_pos rfl]
  · apply FileSystem.read_of_fileOf? hsource
    rw [hnodeAt, if_pos rfl]
    split <;> rfl

/-- A generation that succeeds leaves both files as checking wants them, whatever they held before
and by whatever links they were reached.  The one exception is a single file under both paths: there
a generation always succeeds, and the include is what it leaves. -/
theorem check_after_generate (fs : FileSystem) (sourcePath includePath : Text) :
    let generation := generate fs sourcePath includePath
    (generation.result = .ok () →
      generation.fs.read includePath = .ok Artifact.asmInclude.bytes ∧
        (fs.fileOf? sourcePath ≠ fs.fileOf? includePath →
          generation.fs.read sourcePath = .ok Artifact.cSource.bytes ∧
            check generation.fs sourcePath includePath = .ok ⟨.upToDate, .upToDate⟩)) ∧
      ∀ loc, fs.fileOf? sourcePath = some loc → fs.fileOf? includePath = some loc →
        generation.result = .ok () ∧
          generation.fs.nodeAt loc = some (.file Artifact.asmInclude.bytes) ∧
          generation.fs.read sourcePath = .ok Artifact.asmInclude.bytes ∧
          check generation.fs sourcePath includePath = .ok ⟨.stale, .upToDate⟩ := by
  intro generation
  constructor
  · intro hresult
    rcases exists_files_of_generate hresult with ⟨sourceLoc, includeLoc, hsource, hinclude⟩
    rcases read_after_generate hsource hinclude with ⟨hreadInclude, hreadSource⟩
    refine ⟨hreadInclude, ?_⟩
    intro hne
    have hloc : sourceLoc ≠ includeLoc := by
      rintro rfl
      exact hne (hsource.trans hinclude.symm)
    rw [if_neg hloc] at hreadSource
    have hcheck := check_of_read hreadSource hreadInclude
    rw [if_pos rfl, if_pos rfl] at hcheck
    exact ⟨hreadSource, hcheck⟩
  · intro loc hsource hinclude
    have hgenerate := generate_of_fileOf? hsource hinclude
    rcases read_after_generate hsource hinclude with ⟨hreadInclude, hreadSource⟩
    rw [if_pos rfl] at hreadSource
    have hcheck := check_of_read hreadSource hreadInclude
    rw [if_neg cSource_bytes_ne.symm, if_pos rfl] at hcheck
    have hframe := FileSystem.frameAt_of_fileOf? hsource
    have hnode := (generated_spec hframe hframe).2 loc
    rw [if_pos rfl] at hnode
    refine ⟨?_, ?_, hreadSource, hcheck⟩
    · exact congrArg Generation.result hgenerate
    · rw [← hnode]
      exact congrArg (fun generation => generation.fs.nodeAt loc) hgenerate

/-- A link to the source that dangles until the generation: one file under both paths, and another
file beside it. -/
theorem check_after_generate_of_link :
    let source : Name := ⟨"isr.c".toList, by decide⟩
    let link : Name := ⟨"link".toList, by decide⟩
    let inclusion : Name := ⟨"isr.inc".toList, by decide⟩
    let fs := FileSystem.fresh.put [link, ⟨"work".toList, by decide⟩] (.link source.text)
    fs.fileOf? link.text = fs.fileOf? source.text ∧
      check (generate fs link.text source.text).fs link.text source.text =
        .ok ⟨.stale, .upToDate⟩ ∧
      fs.fileOf? link.text ≠ fs.fileOf? inclusion.text ∧
      check (generate fs link.text inclusion.text).fs link.text inclusion.text =
        .ok ⟨.upToDate, .upToDate⟩ := by
  intro source link inclusion fs
  have hdir : fs.nodeAt fs.workingDirectory = some .directory := by decide +kernel
  have hlink : fs.fileOf? link.text = some (source :: fs.workingDirectory) :=
    FileSystem.fileOf?_link hdir (by decide +kernel) (by decide +kernel)
  have hsource : fs.fileOf? source.text = some (source :: fs.workingDirectory) :=
    FileSystem.fileOf?_name hdir (by decide +kernel)
  have hinclude : fs.fileOf? inclusion.text = some (inclusion :: fs.workingDirectory) :=
    FileSystem.fileOf?_name hdir (by decide +kernel)
  have hne : fs.fileOf? link.text ≠ fs.fileOf? inclusion.text := by
    rw [hlink, hinclude]
    simp [source, inclusion]
  have hresult := congrArg Generation.result (generate_of_fileOf? hlink hinclude)
  refine ⟨hlink.trans hsource.symm, ?_, hne, ?_⟩
  · exact ((check_after_generate fs _ _).2 _ hlink hsource).2.2.2
  · exact (((check_after_generate fs _ _).1 hresult).2 hne).2

end KernelTools.Interrupt

import KernelTools.Interrupt.Tables
import KernelTools.Proofs.FileSystem.Rewriting

/-!
# What a generation touches, however it ends

Each access of a generation concerns one open handle, and a handle stands for one file or for a
device that keeps nothing.  So wherever a generation breaks off, the file system has come from the
one before by writing some of two files: those that its two paths were sent to before it began.

Main results:

- Theorem {lit}`Rewrites.trans`: writing some files and then others writes them all.
- Theorem {lit}`exists_rewrites_of_generate`: a generation writes no file but its two targets.
- Theorem {lit}`exists_parent_of_fileOf?`: what a path is written to lies in a directory that is
  there.
-/

namespace KernelTools.FileSystem

variable {fs fs' fs'' : FileSystem} {locs locs' : List Location} {loc : Location} {path : Text}
  {handle : Handle}

/-! ## Writing in several steps -/

theorem Rewrites.refl (fs : FileSystem) : Rewrites [] fs fs :=
  ⟨rfl, fun _ _ => rfl, by simp, by simp⟩

/-- Writing some files and then others writes them all. -/
theorem Rewrites.trans (h : Rewrites locs fs fs') (h' : Rewrites locs' fs' fs'') :
    Rewrites (locs ++ locs') fs fs'' := by
  refine ⟨h.workingDirectory_eq.trans h'.workingDirectory_eq, ?_, ?_, ?_⟩
  · intro loc hloc
    rw [List.mem_append, not_or] at hloc
    rw [h'.nodeAt_eq loc hloc.2, h.nodeAt_eq loc hloc.1]
  · intro loc hloc
    rcases List.mem_append.1 hloc with hloc | hloc
    · exact h.frameAt_eq_none loc hloc
    · rw [h.sameFrame.frameAt_eq]
      exact h'.frameAt_eq_none loc hloc
  · intro loc hloc
    by_cases hlast : loc ∈ locs'
    · exact h'.exists_file loc hlast
    · rw [h'.nodeAt_eq loc hlast]
      exact h.exists_file loc ((List.mem_append.1 hloc).resolve_right hlast)

/-- Storing a file where there was a file or nothing writes that one file. -/
theorem rewrites_put (h : fs.frameAt loc = none) (contents : Bytes) :
    Rewrites [loc] fs (fs.put loc (.file contents)) := by
  refine ⟨rfl, ?_, ?_, ?_⟩
  · intro l hl
    rw [nodeAt_put_file h, if_neg (by simpa using hl)]
  · simpa using h
  · intro l hl
    exact ⟨contents, by rw [nodeAt_put_file h, if_pos (by simpa using hl)]⟩

/-! ## Open handles -/

/-- The files that an open handle stands for: the one that was opened; a device is none. -/
def Handle.files : Handle → List Location
  | .file loc => [loc]
  | .nullDevice => []

/-- What is opened is where the path is written to. -/
theorem fileOf?_of_openForWriting (h : fs.openForWriting path = .ok (handle, fs')) :
    ∀ loc ∈ handle.files, fs.fileOf? path = some loc := by
  cases handle with
  | file loc => simpa [Handle.files] using (openForWriting_eq_file_iff.1 h).1
  | nullDevice => simp [Handle.files]

/-- Opening writes no file but the one that is opened, which may have to be made. -/
theorem rewrites_of_openForWriting (h : fs.openForWriting path = .ok (handle, fs')) :
    Rewrites handle.files fs fs' := by
  cases handle with
  | file loc =>
    rcases openForWriting_eq_file_iff.1 h with ⟨hfile, rfl⟩
    have hframe := frameAt_of_fileOf? hfile
    refine ⟨((SameFrame.refl fs).ensureFile hframe).workingDirectory_eq, ?_, ?_, ?_⟩
    · intro l hl
      exact nodeAt_ensureFile_of_ne hframe (by simpa [Handle.files] using hl)
    · simpa [Handle.files] using hframe
    · simpa [Handle.files] using exists_file_ensureFile hframe
  | nullDevice =>
    rcases openForWriting_eq_nullDevice_iff.1 h with ⟨-, rfl⟩
    exact .refl fs'

/-- Overwriting writes no file but the one that is open. -/
theorem rewrites_of_overwrite {contents : Bytes}
    (hfiles : ∀ loc ∈ handle.files, ∃ old, fs.nodeAt loc = some (.file old))
    (h : fs.overwrite handle contents = .ok fs') : Rewrites handle.files fs fs' := by
  cases handle with
  | file loc =>
    rcases hfiles loc (by simp [Handle.files]) with ⟨old, hold⟩
    rw [overwrite_of_file hold] at h
    cases h
    exact rewrites_put (frameAt_eq_none_iff.2 (.inr ⟨old, hold⟩)) contents
  | nullDevice => contradiction

/-! ## The directory of a file -/

/-- A file that a path leads to lies in a directory. -/
theorem Leads.exists_parent {purpose : Purpose} {links : Nat} {dir : Location}
    {steps : List Path.Step} {slash : Bool} {contents : Bytes}
    (h : Leads fs purpose links dir steps slash (.present loc (.file contents))) :
    ∃ name parent, loc = name :: parent ∧ fs.nodeAt parent = some .directory := by
  generalize htarget : Target.present loc (.file contents) = target at h
  induction h with
  | stop => cases htarget
  | here _ ih => exact ih htarget
  | up _ ih => exact ih htarget
  | absent => cases htarget
  | enter _ _ _ _ ih => exact ih htarget
  | entryLink => cases htarget
  | follow _ _ _ _ _ ih => exact ih htarget
  | @leaf _ dir name _ hdir =>
    cases htarget
    exact ⟨name, dir, rfl, hdir⟩

/-- What a path is written to lies in a directory that is there. -/
theorem exists_parent_of_fileOf? (h : fs.fileOf? path = some loc) :
    ∃ name parent, loc = name :: parent ∧ fs.nodeAt parent = some .directory := by
  rcases fileOf?_eq_some_iff.1 h with ⟨target, hlocate, hloc⟩
  have hleads := (locate_eq_ok_iff.1 hlocate).2.2.2
  unfold Target.fileLocation? at hloc
  split at hloc
  · cases hloc
    exact hleads.exists_parent
  · next dir name =>
    cases hloc
    exact ⟨name, dir, rfl, hleads.isIn.1⟩
  · contradiction

end KernelTools.FileSystem

namespace KernelTools.Interrupt

open FileSystem (Rewrites)

/-! ## Generation -/

/-- However a generation ends, it has written no file but the two that its paths were sent to. -/
theorem exists_rewrites_of_generate (fs : FileSystem) (sourcePath includePath : Text) :
    ∃ locs, Rewrites locs fs (generate fs sourcePath includePath).fs ∧
      ∀ loc ∈ locs, fs.fileOf? sourcePath = some loc ∨ fs.fileOf? includePath = some loc := by
  cases hopenSource : fs.openForWriting sourcePath with
  | error e =>
    simp only [generate, hopenSource]
    exact ⟨[], .refl fs, by simp⟩
  | ok openedSource =>
    obtain ⟨sourceFile, fs₁⟩ := openedSource
    have hsource := FileSystem.fileOf?_of_openForWriting hopenSource
    have h₁ := FileSystem.rewrites_of_openForWriting hopenSource
    cases hopenInclude : fs₁.openForWriting includePath with
    | error e =>
      simp only [generate, hopenSource, hopenInclude]
      exact ⟨sourceFile.files, h₁, fun loc hloc => .inl (hsource loc hloc)⟩
    | ok openedInclude =>
      obtain ⟨includeFile, fs₂⟩ := openedInclude
      have hinclude := FileSystem.fileOf?_of_openForWriting hopenInclude
      rw [← h₁.sameFrame.fileOf?_eq] at hinclude
      have h₂ := h₁.trans (FileSystem.rewrites_of_openForWriting hopenInclude)
      have htargets : ∀ loc, loc ∈ sourceFile.files ∨ loc ∈ includeFile.files →
          fs.fileOf? sourcePath = some loc ∨ fs.fileOf? includePath = some loc :=
        fun loc hloc => hloc.imp (hsource loc) (hinclude loc)
      have hfilesSource : ∀ loc ∈ sourceFile.files, ∃ old, fs₂.nodeAt loc = some (.file old) :=
        fun loc hloc => h₂.exists_file loc (List.mem_append_left _ hloc)
      cases hwriteSource : fs₂.overwrite sourceFile Artifact.cSource.bytes with
      | error e =>
        simp only [generate, hopenSource, hopenInclude, hwriteSource]
        exact ⟨_, h₂, fun loc hloc => htargets loc (List.mem_append.1 hloc)⟩
      | ok fs₃ =>
        have h₃ := h₂.trans (FileSystem.rewrites_of_overwrite hfilesSource hwriteSource)
        have hfilesInclude : ∀ loc ∈ includeFile.files,
            ∃ old, fs₃.nodeAt loc = some (.file old) :=
          fun loc hloc => h₃.exists_file loc (by simp [hloc])
        cases hwriteInclude : fs₃.overwrite includeFile Artifact.asmInclude.bytes with
        | error e =>
          simp only [generate, hopenSource, hopenInclude, hwriteSource, hwriteInclude]
          refine ⟨_, h₃, fun loc hloc => htargets loc ?_⟩
          simp only [List.mem_append] at hloc
          tauto
        | ok fs₄ =>
          have h₄ := h₃.trans (FileSystem.rewrites_of_overwrite hfilesInclude hwriteInclude)
          simp only [generate, hopenSource, hopenInclude, hwriteSource, hwriteInclude]
          refine ⟨_, h₄, fun loc hloc => htargets loc ?_⟩
          simp only [List.mem_append] at hloc
          tauto

end KernelTools.Interrupt

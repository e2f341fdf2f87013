import KernelTools.Proofs.FileSystem.Contents
import KernelTools.Proofs.Interrupt.Checking
import KernelTools.Proofs.Interrupt.Generation

/-!
# Generating again

A generation empties both its files before it writes them, and what files hold leads no path elsewhere.
So what its two files held before is forgotten: it decides neither whether the generation succeeds nor
what is left when it does.  A generation whose files hold their artifacts already stores what lies
there, and leaves the file system as it is.

Main results:

- Theorem {lit}`result_generate_eq`: whether a generation succeeds depends on the tree alone.
- Theorem {lit}`alike_generated`: what its files held before makes no difference to what a generation
  leaves.
- Theorem {lit}`generated_eq_self`: writing artifacts over themselves changes nothing.
- Theorem {lit}`generate_stable`: a generation of what is up to date changes nothing, it forgets what its
  files held, and repeating it changes nothing.
-/

namespace KernelTools.Interrupt

open FileSystem (Alike DifferInContents SameFrame SameOrder SameTree)

variable {fs fs' : FileSystem} {sourcePath includePath : Text} {sourceLoc includeLoc : Location}

/-! ## Whether a generation succeeds -/

/-- Whether a generation succeeds, and why not, depends on the tree alone. -/
theorem result_generate_eq (h : SameTree fs fs') (sourcePath includePath : Text) :
    (generate fs sourcePath includePath).result = (generate fs' sourcePath includePath).result := by
  cases h.openForWriting sourcePath with
  | failed hsource hsource' => simp only [generate, hsource, hsource']
  | @opened sourceFile _ _ hsource hsource' h₁ =>
    cases h₁.openForWriting includePath with
    | failed hinclude hinclude' => simp only [generate, hsource, hsource', hinclude, hinclude']
    | @opened includeFile _ _ hinclude hinclude' _ =>
      -- Whether a file can be overwritten depends on its handle alone: a device cannot.
      cases sourceFile <;> cases includeFile <;>
        simp [generate, hsource, hsource', hinclude, hinclude', FileSystem.overwrite,
          FileSystem.setLength]

/-! ## What it leaves -/

/-- What its files held before makes no difference to what a generation leaves. -/
theorem alike_generated (hsource : fs.frameAt sourceLoc = none)
    (hinclude : fs.frameAt includeLoc = none)
    (h : DifferInContents (fun loc => loc = sourceLoc ∨ loc = includeLoc) fs fs') :
    Alike (generated fs sourceLoc includeLoc) (generated fs' sourceLoc includeLoc) := by
  have hsource' := hsource
  have hinclude' := hinclude
  rw [h.sameTree.sameFrame.frameAt_eq] at hsource' hinclude'
  have hrewrites := rewrites_generated hsource hinclude
  have hrewrites' := rewrites_generated hsource' hinclude'
  constructor
  · rw [← hrewrites.workingDirectory_eq, ← hrewrites'.workingDirectory_eq, h.workingDirectory_eq]
  · intro loc
    by_cases hloc : loc = sourceLoc ∨ loc = includeLoc
    · rw [(generated_spec hsource hinclude).2, (generated_spec hsource' hinclude').2]
      rcases hloc with hloc | hloc <;> simp [hloc]
    · have hkept : fs.nodeAt loc = fs'.nodeAt loc :=
        (h.nodeAt_eq_or loc).resolve_right fun hdiffer => hloc hdiffer.1
      have hmem : loc ∉ [sourceLoc, includeLoc] := by rwa [List.mem_pair]
      rw [hrewrites.nodeAt_eq loc hmem, hrewrites'.nodeAt_eq loc hmem, hkept]

/-- Nor does it make a difference to the order of the entries. -/
theorem sameOrder_generated (hsource : fs.frameAt sourceLoc = none)
    (hinclude : fs.frameAt includeLoc = none) (h : SameTree fs fs') (horder : SameOrder fs fs') :
    SameOrder (generated fs sourceLoc includeLoc) (generated fs' sourceLoc includeLoc) := by
  have hinclude' : (fs.ensureFile sourceLoc).frameAt includeLoc = none := by
    rwa [← ((SameFrame.refl fs).ensureFile hsource).frameAt_eq]
  have hopened : SameOrder (opened fs sourceLoc includeLoc) (opened fs' sourceLoc includeLoc) :=
    (horder.ensureFile h hsource).ensureFile (h.ensureFile hsource) hinclude'
  rcases FileSystem.exists_cons_of_frameAt hsource with ⟨source, sourceDir, rfl⟩
  rcases FileSystem.exists_cons_of_frameAt hinclude with ⟨inclusion, includeDir, rfl⟩
  exact (hopened.put source sourceDir _ _).put inclusion includeDir _ _

/-- Writing artifacts over themselves changes nothing, and neither does it when both files are one and
hold the last artifact. -/
theorem generated_eq_self (hinclude : fs.nodeAt includeLoc = some (.file Artifact.asmInclude.bytes))
    (hsource : sourceLoc = includeLoc ∨
      fs.nodeAt sourceLoc = some (.file Artifact.cSource.bytes)) :
    generated fs sourceLoc includeLoc = fs := by
  have hfile : ∃ contents, fs.nodeAt sourceLoc = some (.file contents) := by
    rcases hsource with rfl | hsource
    · exact ⟨_, hinclude⟩
    · exact ⟨_, hsource⟩
  have hopened : opened fs sourceLoc includeLoc = fs := by
    rcases hfile with ⟨contents, hfile⟩
    have hfirst : fs.ensureFile sourceLoc = fs := by rw [FileSystem.ensureFile, hfile]
    rw [opened, hfirst, FileSystem.ensureFile, hinclude]
  have hlast : fs.put includeLoc (.file Artifact.asmInclude.bytes) = fs :=
    FileSystem.put_file_of_nodeAt hinclude
  rw [generated, hopened]
  rcases hsource with rfl | hsource
  · rw [FileSystem.put_put, hlast]
  · rw [FileSystem.put_file_of_nodeAt hsource, hlast]

/-! ## Again -/

/-- A generation of two files that are up to date changes nothing. -/
theorem generate_of_upToDate
    (h : check fs sourcePath includePath = .ok ⟨.upToDate, .upToDate⟩) :
    (generate fs sourcePath includePath).result = .ok () ∧
      (generate fs sourcePath includePath).fs = fs := by
  obtain ⟨⟨hreadSource⟩, ⟨hreadInclude⟩⟩ := check_eq_ok_iff.1 h
  obtain ⟨sourceLoc, hsource, hsourceFile⟩ :=
    FileSystem.exists_fileOf?_of_read hreadSource (bytes_ne_nil .cSource)
  obtain ⟨includeLoc, hinclude, hincludeFile⟩ :=
    FileSystem.exists_fileOf?_of_read hreadInclude (bytes_ne_nil .asmInclude)
  rw [generate_of_fileOf? hsource hinclude]
  exact ⟨rfl, generated_eq_self hincludeFile (.inr hsourceFile)⟩

/-- Repeating a generation that succeeded succeeds and changes nothing. -/
theorem generate_generate (h : (generate fs sourcePath includePath).result = .ok ()) :
    generate (generate fs sourcePath includePath).fs sourcePath includePath =
      generate fs sourcePath includePath := by
  rcases exists_files_of_generate h with ⟨sourceLoc, includeLoc, hsource, hinclude⟩
  obtain ⟨hframe, hnodeAt⟩ := generated_spec (FileSystem.frameAt_of_fileOf? hsource)
    (FileSystem.frameAt_of_fileOf? hinclude)
  have hsource' := hsource
  have hinclude' := hinclude
  rw [hframe.fileOf?_eq] at hsource' hinclude'
  have hself : generated (generated fs sourceLoc includeLoc) sourceLoc includeLoc =
      generated fs sourceLoc includeLoc := by
    apply generated_eq_self
    · rw [hnodeAt, if_pos rfl]
    · by_cases hloc : sourceLoc = includeLoc
      · exact .inl hloc
      · exact .inr (by rw [hnodeAt, if_neg hloc, if_pos rfl])
  rw [generate_of_fileOf? hsource hinclude, generate_of_fileOf? hsource' hinclude', hself]

/-- All the difference between two file systems is what the files hold that two paths lead to. -/
def DifferInTargets (sourcePath includePath : Text) (fs fs' : FileSystem) : Prop :=
  DifferInContents (fun loc => fs.foundAt? sourcePath = some loc ∨ fs.foundAt? includePath = some loc)
    fs fs'

/-- A file that a path leads to is the one that it is written to. -/
theorem DifferInTargets.differInContents (h : DifferInTargets sourcePath includePath fs fs')
    (hsource : fs.fileOf? sourcePath = some sourceLoc)
    (hinclude : fs.fileOf? includePath = some includeLoc) :
    DifferInContents (fun loc => loc = sourceLoc ∨ loc = includeLoc) fs fs' := by
  refine ⟨h.workingDirectory_eq, ?_⟩
  intro loc
  apply (h.nodeAt_eq_or loc).imp_right
  rintro ⟨hfound, contents, contents', hfile, hfile'⟩
  refine ⟨?_, contents, contents', hfile, hfile'⟩
  rcases hfound with hfound | hfound
  · have hwritten := FileSystem.fileOf?_of_foundAt? hfound hfile
    exact .inl (Option.some.inj (hwritten.symm.trans hsource))
  · have hwritten := FileSystem.fileOf?_of_foundAt? hfound hfile
    exact .inr (Option.some.inj (hwritten.symm.trans hinclude))

/-- What a generation that succeeds leaves depends on nothing that its two files held. -/
theorem fs_generate_eq (h : DifferInTargets sourcePath includePath fs fs')
    (hresult : (generate fs sourcePath includePath).result = .ok ()) :
    Alike (generate fs sourcePath includePath).fs (generate fs' sourcePath includePath).fs ∧
      (SameOrder fs fs' →
        (generate fs sourcePath includePath).fs = (generate fs' sourcePath includePath).fs) := by
  have htree : SameTree fs fs' := DifferInContents.sameTree h
  rcases exists_files_of_generate hresult with ⟨sourceLoc, includeLoc, hsource, hinclude⟩
  have hsource' := hsource
  have hinclude' := hinclude
  rw [htree.sameFrame.fileOf?_eq] at hsource' hinclude'
  have hsourceFrame := FileSystem.frameAt_of_fileOf? hsource
  have hincludeFrame := FileSystem.frameAt_of_fileOf? hinclude
  have halike := alike_generated hsourceFrame hincludeFrame (h.differInContents hsource hinclude)
  rw [generate_of_fileOf? hsource hinclude, generate_of_fileOf? hsource' hinclude']
  refine ⟨halike, ?_⟩
  intro horder
  exact halike.eq_of_sameOrder (sameOrder_generated hsourceFrame hincludeFrame htree horder)

/-- A generation of files that are up to date succeeds and leaves the file system exactly as it was.
Whatever the files hold that its paths lead to, it has the same result, and when it succeeds it leaves
the same nodes everywhere, in the same order if they were in the same order before.  So when it is
repeated after that, be its files two or one, it succeeds and changes nothing. -/
theorem generate_stable (fs : FileSystem) (sourcePath includePath : Text) :
    (check fs sourcePath includePath = .ok ⟨.upToDate, .upToDate⟩ →
      (generate fs sourcePath includePath).result = .ok () ∧
        (generate fs sourcePath includePath).fs = fs) ∧
    (∀ fs', DifferInTargets sourcePath includePath fs fs' →
      (generate fs sourcePath includePath).result = (generate fs' sourcePath includePath).result ∧
        ((generate fs sourcePath includePath).result = .ok () →
          Alike (generate fs sourcePath includePath).fs (generate fs' sourcePath includePath).fs ∧
            (SameOrder fs fs' → (generate fs sourcePath includePath).fs =
              (generate fs' sourcePath includePath).fs))) ∧
    ((generate fs sourcePath includePath).result = .ok () →
      generate (generate fs sourcePath includePath).fs sourcePath includePath =
        generate fs sourcePath includePath) := by
  refine ⟨generate_of_upToDate, ?_, generate_generate⟩
  intro fs' h
  constructor
  · exact result_generate_eq (DifferInContents.sameTree h) sourcePath includePath
  · exact fs_generate_eq h

/-- A source with something behind its artifact, and the same one emptied: a generation leaves the same
for both, and repeating it changes nothing, neither for the source and an include nor for the source
and a link to it. -/
theorem generate_stable_of_leftover :
    let source : Name := ⟨"isr.c".toList, by decide⟩
    let link : Name := ⟨"link".toList, by decide⟩
    let inclusion : Name := ⟨"isr.inc".toList, by decide⟩
    let work : Location := [⟨"work".toList, by decide⟩]
    let base := FileSystem.fresh.put (link :: work) (.link source.text)
    let fs := base.put (source :: work) (.file (Artifact.cSource.bytes ++ [33]))
    let fs' := base.put (source :: work) (.file [])
    let left := (generate fs source.text inclusion.text).fs
    DifferInTargets source.text inclusion.text fs fs' ∧
      left = (generate fs' source.text inclusion.text).fs ∧
      check left source.text inclusion.text = .ok ⟨.upToDate, .upToDate⟩ ∧
      (generate left source.text inclusion.text).fs = left ∧
      generate (generate fs link.text source.text).fs link.text source.text =
        generate fs link.text source.text := by
  intro source link inclusion work base fs fs' left
  have hdir : fs.nodeAt fs.workingDirectory = some .directory := by decide +kernel
  have hsource : fs.fileOf? source.text = some (source :: work) :=
    FileSystem.fileOf?_name hdir (by decide +kernel)
  have hlink : fs.fileOf? link.text = some (source :: work) :=
    FileSystem.fileOf?_link hdir (by decide +kernel) (by decide +kernel)
  have hinclude : fs.fileOf? inclusion.text = some (inclusion :: work) :=
    FileSystem.fileOf?_name hdir (by decide +kernel)
  have hnodeAt (contents : Bytes) (loc : Location) :
      (base.put (source :: work) (.file contents)).nodeAt loc =
        if loc = source :: work then some (.file contents) else base.nodeAt loc :=
    FileSystem.nodeAt_put base source work loc (.file contents)
  have hdiffer : DifferInTargets source.text inclusion.text fs fs' := by
    refine ⟨rfl, ?_⟩
    intro loc
    by_cases hloc : loc = source :: work
    · have hfile : fs.nodeAt loc = some (.file (Artifact.cSource.bytes ++ [33])) := by
        rw [hnodeAt, if_pos hloc]
      have hfile' : fs'.nodeAt loc = some (.file []) := by rw [hnodeAt, if_pos hloc]
      subst hloc
      have hfound := FileSystem.foundAt?_of_fileOf? hsource hfile
      exact .inr ⟨.inl hfound, _, _, hfile, hfile'⟩
    · exact .inl (by rw [hnodeAt, hnodeAt, if_neg hloc, if_neg hloc])
  have horder : SameOrder fs fs' := ⟨by decide +kernel, by decide +kernel⟩
  have hresult := congrArg Generation.result (generate_of_fileOf? hsource hinclude)
  have hresult' := congrArg Generation.result (generate_of_fileOf? hlink hsource)
  have hne : source :: work ≠ inclusion :: work := by decide
  have hcheck : check left source.text inclusion.text = .ok ⟨.upToDate, .upToDate⟩ := by
    rcases read_after_generate hsource hinclude with ⟨hreadInclude, hreadSource⟩
    rw [if_neg hne] at hreadSource
    simpa using check_of_read hreadSource hreadInclude
  have hforgotten := (generate_stable fs source.text inclusion.text).2.1 fs' hdiffer
  exact ⟨hdiffer, (hforgotten.2 hresult).2 horder, hcheck, ((generate_stable left _ _).1 hcheck).2,
    (generate_stable fs link.text source.text).2.2 hresult'⟩

end KernelTools.Interrupt

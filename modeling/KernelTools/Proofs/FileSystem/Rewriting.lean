import KernelTools.Proofs.FileSystem.Writing

/-!
# What paths lead to after files were written

Writing files sends no path elsewhere.  A path that led to something leads there still, and a path
that leads somewhere for the first time leads to a file that was made.  So whatever is read through
a path that does not end at a written file is read as before.

Main results:

- Theorem {lit}`Leads.of_sameFrame_present`: a path leads to the same place in every file system
  that has the same frame and something in that place.
- Theorem {lit}`Rewrites.read_eq`: a path that ends apart from the written files reads as before.
-/

namespace KernelTools.FileSystem

variable {fs fs' : FileSystem} {purpose : Purpose} {links : Nat} {dir loc : Location}
  {steps : List Path.Step} {slash : Bool} {node node' : Node} {path : Text}

/-! ## Found again -/

/-- Where two file systems with the same frame both have a node, it is the same one, or there are two
files. -/
theorem SameFrame.eq_or_files (hframe : SameFrame fs fs') (h : fs.nodeAt loc = some node)
    (h' : fs'.nodeAt loc = some node') :
    node' = node ∨ ∃ contents contents', node = .file contents ∧ node' = .file contents' := by
  by_cases hfile : ∃ contents, node = .file contents
  · rcases hfile with ⟨contents, rfl⟩
    have hnone : fs'.frameAt loc = none := by
      rw [← hframe.frameAt_eq]
      exact frameAt_eq_none_iff.2 (.inr ⟨contents, h⟩)
    rcases frameAt_eq_none_iff.1 hnone with habsent | ⟨contents', hfile'⟩
    · rw [habsent] at h'
      contradiction
    · rw [hfile'] at h'
      cases h'
      exact .inr ⟨contents, contents', rfl, rfl⟩
  · rw [hframe.nodeAt_eq h (fun contents heq => hfile ⟨contents, heq⟩)] at h'
    cases h'
    exact .inl rfl

/-- A path leads to the same place in every file system that has the same frame and something in
that place. -/
theorem Leads.of_sameFrame_present (hframe : SameFrame fs fs')
    (h : Leads fs purpose links dir steps slash (.present loc node))
    (hnode' : fs'.nodeAt loc = some node') :
    Leads fs' purpose links dir steps slash (.present loc node') := by
  generalize htarget : Target.present loc node = target at h
  induction h with
  | stop hdir slash =>
    cases htarget
    have hdir' := hframe.nodeAt_eq hdir (by simp)
    rw [hdir'] at hnode'
    cases hnode'
    exact .stop hdir' slash
  | here _ ih => exact .here (ih htarget)
  | up _ ih => exact .up (ih htarget)
  | absent => cases htarget
  | enter hslash hdir hdown _ ih =>
    have hdir' := hframe.nodeAt_eq hdir (by simp)
    have hdown' := hframe.nodeAt_eq hdown (by simp)
    exact .enter hslash hdir' hdown' (ih htarget)
  | entryLink hpurpose hdir hlink =>
    cases htarget
    have hlink' := hframe.nodeAt_eq hlink (by simp)
    rw [hlink'] at hnode'
    cases hnode'
    exact .entryLink hpurpose (hframe.nodeAt_eq hdir (by simp)) hlink'
  | follow hslash hentry hdir hlink _ ih =>
    have hdir' := hframe.nodeAt_eq hdir (by simp)
    have hlink' := hframe.nodeAt_eq hlink (by simp)
    exact .follow hslash hentry hdir' hlink' (ih htarget)
  | leaf hdir hlast hleaf =>
    cases htarget
    refine .leaf (hframe.nodeAt_eq hdir (by simp)) hnode' ?_
    rcases hframe.eq_or_files hlast hnode' with rfl | ⟨contents, contents', rfl, rfl⟩
    · exact hleaf
    · simp

/-! ## What a path leads to -/

/-- The location of what a path leads to, links followed, when that is there. -/
def foundAt? (fs : FileSystem) (path : Text) : Option Location :=
  match fs.locate .use path with
  | .ok (.present loc _) => some loc
  | _ => none

theorem foundAt?_eq_some_iff :
    fs.foundAt? path = some loc ↔ ∃ node, fs.locate .use path = .ok (.present loc node) := by
  unfold foundAt?
  split
  · next l node hlocate =>
    simp only [hlocate, Option.some.injEq, Except.ok.injEq, Target.present.injEq]
    constructor
    · rintro rfl
      exact ⟨node, rfl, rfl⟩
    · rintro ⟨_, rfl, _⟩
      rfl
  · next hnone =>
    constructor
    · intro h
      contradiction
    · rintro ⟨node, hlocate⟩
      exact absurd hlocate (hnone loc node)

/-- A path leads to something that is there. -/
theorem exists_nodeAt_of_foundAt? (h : fs.foundAt? path = some loc) :
    ∃ node, fs.nodeAt loc = some node := by
  rcases foundAt?_eq_some_iff.1 h with ⟨node, hlocate⟩
  exact ⟨node, (locate_eq_ok_iff.1 hlocate).2.2.2.isIn⟩

/-- A path leads to what lies at its end. -/
theorem locate_of_foundAt? (h : fs.foundAt? path = some loc) (hnode : fs.nodeAt loc = some node) :
    fs.locate .use path = .ok (.present loc node) := by
  rcases foundAt?_eq_some_iff.1 h with ⟨node', hlocate⟩
  have hin : fs.nodeAt loc = some node' := (locate_eq_ok_iff.1 hlocate).2.2.2.isIn
  rw [hnode] at hin
  cases hin
  exact hlocate

/-- A name that nothing bears leads to nothing. -/
theorem foundAt?_name_eq_none {name : Name} (hdir : fs.nodeAt fs.workingDirectory = some .directory)
    (hnode : fs.nodeAt (name :: fs.workingDirectory) = none) : fs.foundAt? name.text = none := by
  have hleads : Leads fs .use maxLinks fs.workingDirectory [.down name] false
      (.absent fs.workingDirectory name) := .absent (by simp [AsksForDirectory]) hdir hnode
  rw [foundAt?, locate_name_eq_ok_iff.2 hleads]

theorem isPresent_eq (fs : FileSystem) (path : Text) :
    fs.isPresent path = (fs.foundAt? path).isSome := by
  unfold isPresent foundAt?
  cases fs.locate .use path with
  | error e => rfl
  | ok target => cases target <;> rfl

/-- A path that leads to nothing cannot be read. -/
theorem read_of_foundAt?_eq_none (h : fs.foundAt? path = none) :
    ∃ e, fs.read path = .error e := by
  unfold foundAt? at h
  unfold read
  split at h
  · contradiction
  · next hnone =>
    cases hlocate : fs.locate .use path with
    | error e => exact ⟨e, rfl⟩
    | ok target =>
      cases target with
      | present l node => exact absurd hlocate (hnone l node)
      | absent dir name => exact ⟨.notFound, rfl⟩

/-- What is read depends on what lies at the end of the path alone. -/
theorem read_congr (h : fs.foundAt? path = some loc) (h' : fs'.foundAt? path = some loc)
    (hnode : fs.nodeAt loc = fs'.nodeAt loc) : fs.read path = fs'.read path := by
  rcases exists_nodeAt_of_foundAt? h with ⟨node, hin⟩
  have hin' : fs'.nodeAt loc = some node := hnode.symm.trans hin
  simp only [read, locate_of_foundAt? h hin, locate_of_foundAt? h' hin']

/-- A path to a file reads its contents. -/
theorem read_of_foundAt? {contents : Bytes} (h : fs.foundAt? path = some loc)
    (hfile : fs.nodeAt loc = some (.file contents)) : fs.read path = .ok contents := by
  simp only [read, locate_of_foundAt? h hfile]

/-- The path of a file that is there leads to it. -/
theorem foundAt?_of_fileOf? (h : fs.fileOf? path = some loc) (hnode : fs.nodeAt loc = some node) :
    fs.foundAt? path = some loc := by
  rcases locate_of_fileOf? h with ⟨contents, _, huse⟩ | ⟨hnone, _⟩
  · exact foundAt?_eq_some_iff.2 ⟨_, huse⟩
  · rw [hnone] at hnode
    contradiction

/-- A path that leads to a file is written to it. -/
theorem fileOf?_of_foundAt? {contents : Bytes} (h : fs.foundAt? path = some loc)
    (hfile : fs.nodeAt loc = some (.file contents)) : fs.fileOf? path = some loc :=
  fileOf?_of_locate (locate_of_foundAt? h hfile)

/-- A path whose file is yet to be made reads as not found. -/
theorem read_of_fileOf?_absent (h : fs.fileOf? path = some loc) (hnone : fs.nodeAt loc = none) :
    fs.read path = .error .notFound := by
  rcases locate_of_fileOf? h with ⟨contents, hnode, _⟩ | ⟨_, dir, name, huse⟩
  · rw [hnone] at hnode
    contradiction
  · simp only [read, huse]

/-- Where the frame is the same, a path leads to the same place as long as something is there. -/
theorem SameFrame.foundAt?_of_eq (hframe : SameFrame fs fs') (h : fs.foundAt? path = some loc)
    (hnode : fs'.nodeAt loc = some node) : fs'.foundAt? path = some loc := by
  rcases foundAt?_eq_some_iff.1 h with ⟨_, hlocate⟩
  rcases locate_eq_ok_iff.1 hlocate with ⟨hnul, hne, hoctets, hleads⟩
  have hleads' := hleads.of_sameFrame_present hframe hnode
  rw [hframe.workingDirectory_eq] at hleads'
  exact foundAt?_eq_some_iff.2 ⟨node, locate_eq_ok_iff.2 ⟨hnul, hne, hoctets, hleads'⟩⟩

/-! ## Written files -/

/-- One file system comes from another by writing files at some locations, whether there were files
before or nothing. -/
structure Rewrites (locs : List Location) (fs fs' : FileSystem) : Prop where
  workingDirectory_eq : fs.workingDirectory = fs'.workingDirectory
  nodeAt_eq : ∀ loc, loc ∉ locs → fs'.nodeAt loc = fs.nodeAt loc
  frameAt_eq_none : ∀ loc ∈ locs, fs.frameAt loc = none
  exists_file : ∀ loc ∈ locs, ∃ contents, fs'.nodeAt loc = some (.file contents)

namespace Rewrites

variable {locs : List Location}

theorem sameFrame (h : Rewrites locs fs fs') : SameFrame fs fs' := by
  refine ⟨h.workingDirectory_eq, ?_⟩
  intro loc
  by_cases hloc : loc ∈ locs
  · rw [h.frameAt_eq_none loc hloc]
    exact (frameAt_eq_none_iff.2 (.inr (h.exists_file loc hloc))).symm
  · rw [frameAt, frameAt, h.nodeAt_eq loc hloc]

/-- Nothing is removed. -/
theorem exists_nodeAt (h : Rewrites locs fs fs') (hnode : fs.nodeAt loc = some node) :
    ∃ node', fs'.nodeAt loc = some node' := by
  by_cases hloc : loc ∈ locs
  · rcases h.exists_file loc hloc with ⟨contents, hfile⟩
    exact ⟨_, hfile⟩
  · exact ⟨node, (h.nodeAt_eq loc hloc).trans hnode⟩

/-- What a path led to it leads to still. -/
theorem foundAt?_of_eq (h : Rewrites locs fs fs') (hfound : fs.foundAt? path = some loc) :
    fs'.foundAt? path = some loc := by
  rcases exists_nodeAt_of_foundAt? hfound with ⟨node, hnode⟩
  rcases h.exists_nodeAt hnode with ⟨node', hnode'⟩
  exact h.sameFrame.foundAt?_of_eq hfound hnode'

/-- A path that was to be written leads to the written file. -/
theorem foundAt?_of_fileOf? (h : Rewrites locs fs fs') (hfile : fs.fileOf? path = some loc)
    (hloc : loc ∈ locs) : fs'.foundAt? path = some loc := by
  rcases h.exists_file loc hloc with ⟨contents, hnode⟩
  rw [h.sameFrame.fileOf?_eq] at hfile
  exact FileSystem.foundAt?_of_fileOf? hfile hnode

/-- A path that does not lead to a written file leads where it led before. -/
theorem foundAt?_eq (h : Rewrites locs fs fs')
    (hapart : ∀ loc, fs'.foundAt? path = some loc → loc ∉ locs) :
    fs.foundAt? path = fs'.foundAt? path := by
  cases hfound' : fs'.foundAt? path with
  | some loc =>
    rcases exists_nodeAt_of_foundAt? hfound' with ⟨node, hnode⟩
    rw [h.nodeAt_eq loc (hapart loc hfound')] at hnode
    exact h.sameFrame.symm.foundAt?_of_eq hfound' hnode
  | none =>
    cases hfound : fs.foundAt? path with
    | none => rfl
    | some loc =>
      rw [h.foundAt?_of_eq hfound] at hfound'
      contradiction

/-- A path that ends apart from the written files reads as before. -/
theorem read_eq (h : Rewrites locs fs fs') (hfound : fs'.foundAt? path = some loc)
    (hloc : loc ∉ locs) : fs'.read path = fs.read path := by
  have hfound₀ : fs.foundAt? path = some loc := by
    rw [h.foundAt?_eq, hfound]
    intro l hl
    rw [hfound] at hl
    cases hl
    exact hloc
  exact read_congr hfound hfound₀ (h.nodeAt_eq loc hloc)

end Rewrites

end KernelTools.FileSystem

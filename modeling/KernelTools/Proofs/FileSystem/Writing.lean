import KernelTools.FileSystem.Access
import KernelTools.Proofs.FileSystem.Resolution

/-!
# The file that a path is written to

Opening a path for writing finds a file or makes one.  Which location that is depends on directories,
links and devices alone: files that are made or changed meanwhile do not lead the path elsewhere,
not even through a link that led nowhere before.

Main results:

- Theorem {lit}`SameFrame.fileOf?_eq`: file systems that differ in files only send a path to the same
  file.
- Theorem {lit}`openForWriting_eq_file_iff`: what is opened is the file that a path is sent to.
- Theorem {lit}`read_of_fileOf?`: a path reads the file that it is sent to.
- Theorem {lit}`exists_fileOf?_of_read`: a path that reads as something is sent to the file that it reads.
-/

namespace KernelTools.FileSystem

variable {fs fs' : FileSystem} {links : Nat} {dir loc : Location} {steps : List Path.Step}
  {slash : Bool} {target : Target} {path : Text} {contents : Bytes}

/-! ## File systems that differ in files only -/

/-- What lies at a location, when it is no file. -/
def frameAt (fs : FileSystem) (loc : Location) : Option Node :=
  match fs.nodeAt loc with
  | some (.file _) => none
  | found => found

/-- Two file systems have the same directories, links and devices; their files may differ. -/
structure SameFrame (fs fs' : FileSystem) : Prop where
  workingDirectory_eq : fs.workingDirectory = fs'.workingDirectory
  frameAt_eq : ∀ loc, fs.frameAt loc = fs'.frameAt loc

theorem SameFrame.refl (fs : FileSystem) : SameFrame fs fs :=
  ⟨rfl, fun _ => rfl⟩

theorem SameFrame.symm (h : SameFrame fs fs') : SameFrame fs' fs :=
  ⟨h.workingDirectory_eq.symm, fun loc => (h.frameAt_eq loc).symm⟩

/-- A frame has a node at a location when it is there and no file. -/
theorem frameAt_eq_some_iff {node : Node} :
    fs.frameAt loc = some node ↔ fs.nodeAt loc = some node ∧ ∀ contents, node ≠ .file contents := by
  unfold frameAt
  split
  · next contents hfile =>
    simp only [hfile, Option.some.injEq]
    constructor
    · intro h
      contradiction
    · rintro ⟨rfl, hne⟩
      exact absurd rfl (hne contents)
  · next hne =>
    constructor
    · intro h
      refine ⟨h, ?_⟩
      rintro contents rfl
      exact hne contents h
    · intro h
      exact h.1

/-- A frame has nothing at a location where there is nothing or a file. -/
theorem frameAt_eq_none_iff :
    fs.frameAt loc = none ↔ fs.nodeAt loc = none ∨ ∃ contents, fs.nodeAt loc = some (.file contents) := by
  unfold frameAt
  split
  · next contents hfile => simp [hfile]
  · next hne =>
    constructor
    · exact .inl
    · rintro (hnone | ⟨contents, hfile⟩)
      · exact hnone
      · exact absurd hfile (hne contents)

/-- Nodes other than files are where they were. -/
theorem SameFrame.nodeAt_eq (h : SameFrame fs fs') {node : Node}
    (hnode : fs.nodeAt loc = some node) (hfile : ∀ contents, node ≠ .file contents) :
    fs'.nodeAt loc = some node := by
  have hframe := frameAt_eq_some_iff.2 ⟨hnode, hfile⟩
  rw [h.frameAt_eq] at hframe
  exact (frameAt_eq_some_iff.1 hframe).1

/-- A location outside the frame is not the root. -/
theorem exists_cons_of_frameAt (h : fs.frameAt loc = none) : ∃ name dir, loc = name :: dir := by
  cases loc with
  | nil => simp [frameAt] at h
  | cons name dir => exact ⟨name, dir, rfl⟩

/-- What lies at a location after a file was stored outside the frame. -/
theorem nodeAt_put_file (h : fs.frameAt loc = none) (l : Location) :
    (fs.put loc (.file contents)).nodeAt l =
      if l = loc then some (.file contents) else fs.nodeAt l := by
  rcases exists_cons_of_frameAt h with ⟨name, dir, rfl⟩
  exact nodeAt_put fs name dir l (.file contents)

/-- Storing a file outside the frame leaves the frame as it is. -/
theorem SameFrame.put (hframe : SameFrame fs fs') (h : fs'.frameAt loc = none) (contents : Bytes) :
    SameFrame fs (fs'.put loc (.file contents)) := by
  refine ⟨hframe.workingDirectory_eq, ?_⟩
  intro l
  rw [hframe.frameAt_eq]
  by_cases hl : l = loc
  · have hstored : (fs'.put loc (.file contents)).frameAt l = none := by
      rw [frameAt_eq_none_iff, nodeAt_put_file h, if_pos hl]
      exact .inr ⟨contents, rfl⟩
    rw [hstored, hl, h]
  · rw [frameAt, frameAt, nodeAt_put_file h, if_neg hl]

/-! ## Where a path is written -/

/-- The location of the file that a target stands for, be it there or yet to be made. -/
def Target.fileLocation? : Target → Option Location
  | .present loc (.file _) => some loc
  | .absent dir name => some (name :: dir)
  | _ => none

/-- The location of the file that a path is written to, be it there or yet to be made. -/
def fileOf? (fs : FileSystem) (path : Text) : Option Location :=
  match fs.locate .create path with
  | .ok target => target.fileLocation?
  | .error _ => none

/-- A last step to a place outside the frame leads to the file there. -/
theorem exists_leads_file {name : Name} (hdir : fs.nodeAt dir = some .directory)
    (h : fs.frameAt (name :: dir) = none) :
    ∃ target, Leads fs .create links dir [.down name] false target ∧
      target.fileLocation? = some (name :: dir) := by
  rcases frameAt_eq_none_iff.1 h with hnone | ⟨contents, hfile⟩
  · exact ⟨.absent dir name, .absent (by simp [AsksForDirectory]) hdir hnone, rfl⟩
  · exact ⟨.present (name :: dir) (.file contents), .leaf hdir hfile (by simp), rfl⟩

/-- A derivation that ends at a file goes through where only files differ. -/
theorem Leads.of_sameFrame (hframe : SameFrame fs fs')
    (h : Leads fs .create links dir steps slash target) (hloc : target.fileLocation? = some loc) :
    ∃ target', Leads fs' .create links dir steps slash target' ∧
      target'.fileLocation? = some loc := by
  induction h with
  | stop => contradiction
  | here _ ih =>
    rcases ih hloc with ⟨target', h', hloc'⟩
    exact ⟨target', .here h', hloc'⟩
  | up _ ih =>
    rcases ih hloc with ⟨target', h', hloc'⟩
    exact ⟨target', .up h', hloc'⟩
  | @absent _ dir name slash hslash hdir hnode =>
    cases hloc
    have hplain : slash = false := by simpa [AsksForDirectory] using hslash
    subst hplain
    apply exists_leads_file (hframe.nodeAt_eq hdir (by simp))
    rw [← hframe.frameAt_eq]
    exact frameAt_eq_none_iff.2 (.inl hnode)
  | enter hslash hdir hnode _ ih =>
    rcases ih hloc with ⟨target', h', hloc'⟩
    have hdir' := hframe.nodeAt_eq hdir (by simp)
    have hnode' := hframe.nodeAt_eq hnode (by simp)
    exact ⟨target', .enter hslash hdir' hnode' h', hloc'⟩
  | entryLink hpurpose => contradiction
  | follow hslash hentry hdir hnode _ ih =>
    rcases ih hloc with ⟨target', h', hloc'⟩
    have hdir' := hframe.nodeAt_eq hdir (by simp)
    have hnode' := hframe.nodeAt_eq hnode (by simp)
    exact ⟨target', .follow hslash hentry hdir' hnode' h', hloc'⟩
  | @leaf _ dir name node hdir hnode =>
    cases node with
    | file contents =>
      cases hloc
      apply exists_leads_file (hframe.nodeAt_eq hdir (by simp))
      rw [← hframe.frameAt_eq]
      exact frameAt_eq_none_iff.2 (.inr ⟨contents, hnode⟩)
    | _ => contradiction

/-- A path is written to a location when it leads to a file there, or to its free place. -/
theorem fileOf?_eq_some_iff :
    fs.fileOf? path = some loc ↔
      ∃ target, fs.locate .create path = .ok target ∧ target.fileLocation? = some loc := by
  unfold fileOf?
  split
  · next target htarget => simp [htarget]
  · next e herror => simp [herror]

/-- Where only files differ, a path is written to the same location. -/
theorem SameFrame.fileOf?_of_eq (hframe : SameFrame fs fs') (h : fs.fileOf? path = some loc) :
    fs'.fileOf? path = some loc := by
  rcases fileOf?_eq_some_iff.1 h with ⟨target, hlocate, hloc⟩
  rcases locate_eq_ok_iff.1 hlocate with ⟨hnul, hne, hoctets, hleads⟩
  rcases hleads.of_sameFrame hframe hloc with ⟨target', hleads', hloc'⟩
  rw [hframe.workingDirectory_eq] at hleads'
  exact fileOf?_eq_some_iff.2 ⟨target', locate_eq_ok_iff.2 ⟨hnul, hne, hoctets, hleads'⟩, hloc'⟩

/-- File systems that differ in files only send a path to the same file, or both to none. -/
theorem SameFrame.fileOf?_eq (hframe : SameFrame fs fs') (path : Text) :
    fs.fileOf? path = fs'.fileOf? path := by
  ext loc
  constructor
  · exact hframe.fileOf?_of_eq
  · exact hframe.symm.fileOf?_of_eq

/-- At the location that a path is written to there is a file or nothing. -/
theorem frameAt_of_fileOf? (h : fs.fileOf? path = some loc) : fs.frameAt loc = none := by
  rcases fileOf?_eq_some_iff.1 h with ⟨target, hlocate, hloc⟩
  have hisIn := (locate_eq_ok_iff.1 hlocate).2.2.2.isIn
  unfold Target.fileLocation? at hloc
  split at hloc
  · next l contents =>
    cases hloc
    exact frameAt_eq_none_iff.2 (.inr ⟨contents, hisIn⟩)
  · next dir name =>
    cases hloc
    exact frameAt_eq_none_iff.2 (.inl hisIn.2)
  · contradiction

/-! ## Names alone -/

/-- A name alone is taken from the working directory. -/
theorem locate_name_eq_ok_iff {purpose : Purpose} {name : Name} :
    fs.locate purpose name.text = .ok target ↔
      Leads fs purpose maxLinks fs.workingDirectory [.down name] false target := by
  have hoctets : name.text.octets ≤ Path.maxOctets :=
    Nat.le_trans name.isName.2.1 (by decide)
  have hstart : startOf fs.workingDirectory name.text = fs.workingDirectory := by
    simp [startOf, Path.isAbsolute_name]
  rw [locate_eq_ok_iff, hstart, Path.steps_name, Path.endsInSlash_name]
  simp [name.nul_not_mem, name.text_ne_nil, hoctets]

/-- A name alone is written to the working directory, unless something other than a file bears it. -/
theorem fileOf?_name {name : Name} (hdir : fs.nodeAt fs.workingDirectory = some .directory)
    (h : fs.frameAt (name :: fs.workingDirectory) = none) :
    fs.fileOf? name.text = some (name :: fs.workingDirectory) := by
  rcases exists_leads_file hdir h with ⟨target, hleads, hloc⟩
  exact fileOf?_eq_some_iff.2 ⟨target, locate_name_eq_ok_iff.2 hleads, hloc⟩

/-- A link to a name is written through, even when nothing bears that name yet. -/
theorem fileOf?_link {name next : Name} (hdir : fs.nodeAt fs.workingDirectory = some .directory)
    (hlink : fs.nodeAt (name :: fs.workingDirectory) = some (.link next.text))
    (h : fs.frameAt (next :: fs.workingDirectory) = none) :
    fs.fileOf? name.text = some (next :: fs.workingDirectory) := by
  rcases exists_leads_file hdir h with ⟨target, hleads, hloc⟩
  refine fileOf?_eq_some_iff.2 ⟨target, locate_name_eq_ok_iff.2 ?_, hloc⟩
  apply Leads.follow (by simp [AsksForDirectory]) (by simp [AsksForEntry]) hdir hlink
  simpa [startOf, Path.isAbsolute_name, Path.steps_name, Path.endsInSlash_name] using hleads

/-- Nothing is found beneath a name that nothing bears. -/
theorem locate_join_of_absent {purpose : Purpose} {name other : Name}
    (hdir : fs.nodeAt fs.workingDirectory = some .directory)
    (h : fs.nodeAt (name :: fs.workingDirectory) = none) :
    fs.locate purpose (Path.join name.text other) = .error .notFound := by
  have hstart : startOf fs.workingDirectory (Path.join name.text other) = fs.workingDirectory := by
    rw [startOf, Path.isAbsolute_join name.text_ne_nil, Path.isAbsolute_name]
    rfl
  have hoctets : (Path.join name.text other).octets ≤ Path.maxOctets := by
    have hlength := name.isName.2.1
    have hlength' := other.isName.2.1
    rw [Path.join_eq, Path.separator, Path.endsInSlash_name]
    simp only [Text.octets_append, maxNameOctets, Path.maxOctets] at *
    have hslash : Text.octets ['/'] = 1 := by decide
    simp only [Bool.false_eq_true, if_false, hslash]
    omega
  have hnul : '\x00' ∉ Path.join name.text other := by
    rw [Path.nul_mem_join]
    exact name.nul_not_mem
  rw [locate, if_neg hnul, if_neg (Path.join_ne_nil _ _), if_neg (Nat.not_lt.2 hoctets), hstart,
    Path.steps_join, Path.steps_name, Path.endsInSlash_join]
  simp [resolve, hdir, h]

/-! ## Opening -/

/-- Makes an empty file at a location where there is nothing. -/
def ensureFile (fs : FileSystem) (loc : Location) : FileSystem :=
  match fs.nodeAt loc with
  | some _ => fs
  | none => fs.put loc (.file [])

/-- What is opened is the file that the path is written to, made when it was not there. -/
theorem openForWriting_eq_file_iff :
    fs.openForWriting path = .ok (.file loc, fs') ↔
      fs.fileOf? path = some loc ∧ fs' = fs.ensureFile loc := by
  unfold openForWriting fileOf?
  cases hlocate : fs.locate .create path with
  | error e => simp
  | ok target =>
    have hisIn := (locate_eq_ok_iff.1 hlocate).2.2.2.isIn
    cases target with
    | absent dir name =>
      have hnode : fs.nodeAt (name :: dir) = none := hisIn.2
      simp only [Target.fileLocation?, Except.ok.injEq, Prod.mk.injEq, Handle.file.injEq,
        Option.some.injEq]
      constructor
      · rintro ⟨rfl, rfl⟩
        simp [ensureFile, hnode]
      · rintro ⟨rfl, rfl⟩
        simp [ensureFile, hnode]
    | present l node =>
      have hnode : fs.nodeAt l = some node := hisIn
      cases node with
      | file contents =>
        simp only [Target.fileLocation?, Except.ok.injEq, Prod.mk.injEq, Handle.file.injEq,
          Option.some.injEq]
        constructor
        · rintro ⟨rfl, rfl⟩
          simp [ensureFile, hnode]
        · rintro ⟨rfl, rfl⟩
          simp [ensureFile, hnode]
      | _ => simp [Target.fileLocation?]

/-- The null device is what is opened when the path leads to it; nothing is made then. -/
theorem openForWriting_eq_nullDevice_iff :
    fs.openForWriting path = .ok (.nullDevice, fs') ↔
      (∃ loc, fs.locate .create path = .ok (.present loc .nullDevice)) ∧ fs' = fs := by
  unfold openForWriting
  cases hlocate : fs.locate .create path with
  | error e => simp
  | ok target =>
    cases target with
    | absent dir name => simp
    | present l node =>
      cases node with
      | nullDevice =>
        simp only [Except.ok.injEq, Prod.mk.injEq, true_and, Target.present.injEq, and_true]
        constructor
        · rintro rfl
          exact ⟨⟨l, rfl⟩, rfl⟩
        · rintro ⟨-, rfl⟩
          rfl
      | _ => simp

/-- Where there was a file or nothing, there is a file once it is ensured. -/
theorem exists_file_ensureFile (h : fs.frameAt loc = none) :
    ∃ contents, (fs.ensureFile loc).nodeAt loc = some (.file contents) := by
  unfold ensureFile
  rcases frameAt_eq_none_iff.1 h with hnone | ⟨contents, hfile⟩
  · simp only [hnone]
    exact ⟨[], by rw [nodeAt_put_file h, if_pos rfl]⟩
  · simp only [hfile]
    exact ⟨contents, rfl⟩

/-- Ensuring a file removes nothing. -/
theorem nodeAt_ensureFile_of_some (h : fs.frameAt loc = none) {l : Location} {node : Node}
    (hnode : fs.nodeAt l = some node) : (fs.ensureFile loc).nodeAt l = some node := by
  unfold ensureFile
  split
  · exact hnode
  · next hnone =>
    have hne : l ≠ loc := by
      rintro rfl
      simp [hnone] at hnode
    rw [nodeAt_put_file h, if_neg hne, hnode]

/-- Ensuring a file changes nothing in other places. -/
theorem nodeAt_ensureFile_of_ne (h : fs.frameAt loc = none) {l : Location} (hne : l ≠ loc) :
    (fs.ensureFile loc).nodeAt l = fs.nodeAt l := by
  unfold ensureFile
  split
  · rfl
  · rw [nodeAt_put_file h, if_neg hne]

theorem SameFrame.ensureFile (hframe : SameFrame fs fs') (h : fs'.frameAt loc = none) :
    SameFrame fs (fs'.ensureFile loc) := by
  unfold FileSystem.ensureFile
  split
  · exact hframe
  · exact hframe.put h []

/-! ## Reading back -/

/-- A path that can be opened for writing leads to the same place when it is only used. -/
theorem Leads.use_of_create (h : Leads fs .create links dir steps slash target) :
    Leads fs .use links dir steps slash target := by
  induction h with
  | stop hdir slash => exact .stop hdir slash
  | here _ ih => exact .here ih
  | up _ ih => exact .up ih
  | absent _ hdir hnode => exact .absent (by simp [AsksForDirectory]) hdir hnode
  | enter _ hdir hnode _ ih => exact .enter (by simp [AsksForDirectory]) hdir hnode ih
  | entryLink hpurpose => contradiction
  | follow _ _ hdir hnode _ ih =>
    exact .follow (by simp [AsksForDirectory]) (by simp [AsksForEntry]) hdir hnode ih
  | leaf hdir hnode hleaf => exact .leaf hdir hnode hleaf

/-- A path to a file does not end in a slash, and neither do the links on the way to it. -/
theorem Leads.slash_eq_false {purpose : Purpose}
    (h : Leads fs purpose links dir steps slash (.present loc (.file contents))) :
    slash = false := by
  generalize htarget : Target.present loc (.file contents) = target at h
  induction h with
  | stop => cases htarget
  | here _ ih => exact ih htarget
  | up _ ih => exact ih htarget
  | absent => cases htarget
  | enter _ _ _ _ ih => exact ih htarget
  | entryLink => cases htarget
  | @follow _ _ _ rest _ _ _ _ _ _ _ _ ih =>
    have hplain := ih htarget
    by_cases hrest : rest = []
    · rw [if_pos hrest, Bool.or_eq_false_iff] at hplain
      exact hplain.1
    · rwa [if_neg hrest] at hplain
  | leaf => rfl

/-- A path that leads to a file can be opened for writing. -/
theorem Leads.create_of_use
    (h : Leads fs .use links dir steps slash (.present loc (.file contents))) :
    Leads fs .create links dir steps slash (.present loc (.file contents)) := by
  have hplain := h.slash_eq_false
  generalize htarget : Target.present loc (.file contents) = target at h ⊢
  induction h with
  | stop => cases htarget
  | here _ ih => exact .here (ih hplain htarget)
  | up _ ih => exact .up (ih hplain htarget)
  | absent => cases htarget
  | enter _ hdir hnode _ ih =>
    exact .enter (by simp [AsksForDirectory, hplain]) hdir hnode (ih hplain htarget)
  | entryLink hpurpose => contradiction
  | follow _ _ hdir hnode h ih =>
    subst htarget
    exact .follow (by simp [AsksForDirectory, hplain]) (by simp [AsksForEntry]) hdir hnode
      (ih h.slash_eq_false rfl)
  | leaf hdir hnode hleaf => exact .leaf hdir hnode hleaf

/-- A path that leads to a file is written to it. -/
theorem fileOf?_of_locate (h : fs.locate .use path = .ok (.present loc (.file contents))) :
    fs.fileOf? path = some loc := by
  rcases locate_eq_ok_iff.1 h with ⟨hnul, hne, hoctets, hleads⟩
  have hcreate : fs.locate .create path = .ok (.present loc (.file contents)) :=
    locate_eq_ok_iff.2 ⟨hnul, hne, hoctets, hleads.create_of_use⟩
  exact fileOf?_eq_some_iff.2 ⟨_, hcreate, rfl⟩

/-- A path that reads as something other than nothing is written to the file that it reads. -/
theorem exists_fileOf?_of_read (h : fs.read path = .ok contents) (hne : contents ≠ []) :
    ∃ loc, fs.fileOf? path = some loc ∧ fs.nodeAt loc = some (.file contents) := by
  unfold read at h
  split at h
  · contradiction
  · contradiction
  · next loc held hlocate =>
    cases h
    exact ⟨loc, fileOf?_of_locate hlocate, (locate_eq_ok_iff.1 hlocate).2.2.2.isIn⟩
  · cases h
    contradiction
  · contradiction
  · contradiction

/-- A path that is written to a location leads to the file there, or to nothing yet. -/
theorem locate_of_fileOf? (h : fs.fileOf? path = some loc) :
    (∃ contents, fs.nodeAt loc = some (.file contents) ∧
        fs.locate .use path = .ok (.present loc (.file contents))) ∨
      fs.nodeAt loc = none ∧ ∃ dir name, fs.locate .use path = .ok (.absent dir name) := by
  rcases fileOf?_eq_some_iff.1 h with ⟨target, hlocate, hloc⟩
  rcases locate_eq_ok_iff.1 hlocate with ⟨hnul, hne, hoctets, hleads⟩
  have huse : fs.locate .use path = .ok target :=
    locate_eq_ok_iff.2 ⟨hnul, hne, hoctets, hleads.use_of_create⟩
  have hisIn := hleads.isIn
  unfold Target.fileLocation? at hloc
  split at hloc
  · next l contents =>
    cases hloc
    exact .inl ⟨contents, hisIn, huse⟩
  · next dir name =>
    cases hloc
    exact .inr ⟨hisIn.2, dir, name, huse⟩
  · contradiction

/-- A path reads the file that it is written to. -/
theorem read_of_fileOf? (h : fs.fileOf? path = some loc)
    (hfile : fs.nodeAt loc = some (.file contents)) : fs.read path = .ok contents := by
  rcases locate_of_fileOf? h with ⟨contents', hnode, huse⟩ | ⟨hnone, _⟩
  · rw [hfile] at hnode
    cases hnode
    simp [read, huse]
  · rw [hnone] at hfile
    contradiction

end KernelTools.FileSystem

import KernelTools.Proofs.FileSystem.Rewriting
import KernelTools.Proofs.FileSystem.Tree

/-!
# File systems that differ in what files hold

What some files hold can be all the difference between two file systems.  Then every path can be opened
for writing in both or in neither, and once these files are overwritten nothing can tell the two apart:
they hold the same nodes at the same locations.  They are equal if their entries are kept in the same
order as well, which storing a file does not disturb.

Main results:

- Theorem {lit}`SameTree.openForWriting`: a path is opened for writing alike, or fails alike, wherever
  the tree is the same.
- Theorem {lit}`Alike.eq_of_sameOrder`: file systems with the same nodes are equal when the order of
  their entries is the same.
- Theorem {lit}`put_file_of_nodeAt`: storing a file that lies there already changes nothing.
-/

namespace KernelTools.FileSystem

variable {fs fs' : FileSystem} {name : Name} {dir loc : Location} {node : Node} {path : Text}

/-! ## The same nodes -/

/-- Two file systems hold the same nodes at the same locations, and paths start from the same
directory. -/
structure Alike (fs fs' : FileSystem) : Prop where
  workingDirectory_eq : fs.workingDirectory = fs'.workingDirectory
  nodeAt_eq : ∀ loc, fs.nodeAt loc = fs'.nodeAt loc

/-- Two file systems keep their entries in the same order.  An entry for the root would mean nothing,
but it has to be the same in both. -/
structure SameOrder (fs fs' : FileSystem) : Prop where
  keys_eq : fs.entries.map Prod.fst = fs'.entries.map Prod.fst
  root_eq : fs.entries.lookup [] = fs'.entries.lookup []

/-- File systems with the same nodes are equal when the order of their entries is the same. -/
theorem Alike.eq_of_sameOrder (h : Alike fs fs') (horder : SameOrder fs fs') : fs = fs' := by
  have hlookup (loc : Location) : fs.entries.lookup loc = fs'.entries.lookup loc := by
    cases loc with
    | nil => exact horder.root_eq
    | cons name dir => exact h.nodeAt_eq (name :: dir)
  have hentries : fs.entries = fs'.entries := by
    apply List.ext_getElem
    · simpa using congrArg List.length horder.keys_eq
    · intro i hi hi'
      have hkey : fs.entries[i].1 = fs'.entries[i].1 := by
        have hkeys := List.getElem_of_eq horder.keys_eq (by simpa using hi)
        simpa using hkeys
      have hfound : fs.entries.lookup fs.entries[i].1 = some fs.entries[i].2 :=
        (lookup_eq_some_iff fs.distinct).2 (List.getElem_mem hi)
      have hfound' : fs'.entries.lookup fs'.entries[i].1 = some fs'.entries[i].2 :=
        (lookup_eq_some_iff fs'.distinct).2 (List.getElem_mem hi')
      rw [hlookup, hkey, hfound'] at hfound
      exact Prod.ext hkey (Option.some.inj hfound).symm
  cases fs
  cases fs'
  cases hentries
  cases h.workingDirectory_eq
  rfl

/-! ## Order -/

/-- Storing a node adds its location at the end, unless there is an entry for it. -/
theorem keys_assign (loc : Location) (node : Node) (entries : List (Location × Node)) :
    (assign loc node entries).map Prod.fst =
      if loc ∈ entries.map Prod.fst then entries.map Prod.fst
      else entries.map Prod.fst ++ [loc] := by
  induction entries with
  | nil => simp [assign]
  | cons entry rest ih =>
    rw [assign]
    by_cases heq : entry.1 = loc
    · simp [heq]
    · have hne : loc ≠ entry.1 := fun h => heq h.symm
      rw [if_neg heq, List.map_cons, ih]
      by_cases hmem : loc ∈ rest.map Prod.fst <;> simp [hmem, hne]

/-- Storing nodes at one location keeps the order the same. -/
theorem SameOrder.put (h : SameOrder fs fs') (name : Name) (dir : Location) (node node' : Node) :
    SameOrder (fs.put (name :: dir) node) (fs'.put (name :: dir) node') := by
  constructor
  · simp only [FileSystem.put, keys_assign, h.keys_eq]
  · simp [FileSystem.put, lookup_assign, h.root_eq]

/-- Storing a node where there is one keeps the order as it is. -/
theorem sameOrder_put (h : fs.nodeAt (name :: dir) = some node) (node' : Node) :
    SameOrder fs (fs.put (name :: dir) node') := by
  have hmem : name :: dir ∈ fs.entries.map Prod.fst :=
    List.mem_map_of_mem (nodeAt_eq_some_iff.1 h)
  constructor
  · rw [FileSystem.put, keys_assign, if_pos hmem]
  · simp [FileSystem.put, lookup_assign]

/-- Storing a file that lies there already changes nothing. -/
theorem put_file_of_nodeAt {contents : Bytes} (h : fs.nodeAt loc = some (.file contents)) :
    fs.put loc (.file contents) = fs := by
  have hframe : fs.frameAt loc = none := frameAt_eq_none_iff.2 (.inr ⟨contents, h⟩)
  have halike : Alike fs (fs.put loc (.file contents)) := by
    refine ⟨rfl, ?_⟩
    intro l
    rw [nodeAt_put_file hframe]
    by_cases hl : l = loc
    · rw [if_pos hl, hl, h]
    · rw [if_neg hl]
  rcases exists_cons_of_frameAt hframe with ⟨name, dir, rfl⟩
  exact (halike.eq_of_sameOrder (sameOrder_put h (.file contents))).symm

/-! ## The same tree -/

theorem SameTree.sameFrame (h : SameTree fs fs') : SameFrame fs fs' := by
  refine ⟨h.workingDirectory_eq, ?_⟩
  intro loc
  cases hnode : fs.nodeAt loc with
  | none => rw [frameAt, frameAt, hnode, h.nodeAt_eq_none hnode]
  | some node =>
    rcases h.exists_nodeAt hnode with ⟨node', hnode', hbare⟩
    rw [frameAt, frameAt, hnode, hnode']
    cases node <;> cases node' <;> simp_all [Node.bare]

/-- Where the tree is the same, ensuring a file makes it in both file systems or in neither. -/
theorem SameTree.ensureFile_cases (h : SameTree fs fs') (loc : Location) :
    (fs.ensureFile loc = fs ∧ fs'.ensureFile loc = fs') ∨
      (fs.ensureFile loc = fs.put loc (.file []) ∧ fs'.ensureFile loc = fs'.put loc (.file [])) := by
  cases hnode : fs.nodeAt loc with
  | none =>
    have hnode' := h.nodeAt_eq_none hnode
    exact .inr ⟨by rw [FileSystem.ensureFile, hnode], by rw [FileSystem.ensureFile, hnode']⟩
  | some node =>
    rcases h.exists_nodeAt hnode with ⟨node', hnode', -⟩
    exact .inl ⟨by rw [FileSystem.ensureFile, hnode], by rw [FileSystem.ensureFile, hnode']⟩

theorem SameTree.ensureFile (h : SameTree fs fs') (hframe : fs.frameAt loc = none) :
    SameTree (fs.ensureFile loc) (fs'.ensureFile loc) := by
  rcases exists_cons_of_frameAt hframe with ⟨name, dir, rfl⟩
  rcases h.ensureFile_cases (name :: dir) with ⟨hkept, hkept'⟩ | ⟨hmade, hmade'⟩
  · rwa [hkept, hkept']
  · rw [hmade, hmade']
    exact h.put_file name dir [] []

theorem SameOrder.ensureFile (horder : SameOrder fs fs') (h : SameTree fs fs')
    (hframe : fs.frameAt loc = none) : SameOrder (fs.ensureFile loc) (fs'.ensureFile loc) := by
  rcases exists_cons_of_frameAt hframe with ⟨name, dir, rfl⟩
  rcases h.ensureFile_cases (name :: dir) with ⟨hkept, hkept'⟩ | ⟨hmade, hmade'⟩
  · rwa [hkept, hkept']
  · rw [hmade, hmade']
    exact horder.put name dir _ _

/-! ## Opening -/

/-- A path is opened for writing alike in two file systems, which leaves the tree the same, or it
cannot be opened for the same reason. -/
inductive OpenedAlike (fs fs' : FileSystem) (path : Text) : Prop
  | failed {e : IoError} (h : fs.openForWriting path = .error e)
    (h' : fs'.openForWriting path = .error e)
  | opened {handle : Handle} {fs₁ fs₁' : FileSystem}
    (h : fs.openForWriting path = .ok (handle, fs₁))
    (h' : fs'.openForWriting path = .ok (handle, fs₁')) (htree : SameTree fs₁ fs₁')

/-- A path is opened for writing alike, or fails alike, wherever the tree is the same. -/
theorem SameTree.openForWriting (h : SameTree fs fs') (path : Text) : OpenedAlike fs fs' path := by
  cases hlocate : fs.locate .create path with
  | error e =>
    have hlocate' := h.locate_eq_error hlocate
    exact .failed (by rw [FileSystem.openForWriting, hlocate])
      (by rw [FileSystem.openForWriting, hlocate'])
  | ok target =>
    rcases h.exists_locate hlocate with ⟨target', hlocate', hbare⟩
    cases target with
    | absent dir name =>
      cases target' with
      | present => cases hbare
      | absent =>
        cases hbare
        exact .opened (by rw [FileSystem.openForWriting, hlocate])
          (by rw [FileSystem.openForWriting, hlocate']) (h.put_file name dir [] [])
    | present loc node =>
      cases target' with
      | absent => cases hbare
      | present loc' node' =>
        obtain ⟨rfl, hnode⟩ := Target.present.inj hbare
        -- Two nodes that are alike are of one kind: a file, a directory, a link or the device.
        cases node <;> cases node' <;> simp only [Node.bare, reduceCtorEq] at hnode
        · exact .opened (by rw [FileSystem.openForWriting, hlocate])
            (by rw [FileSystem.openForWriting, hlocate']) h
        · exact .failed (by rw [FileSystem.openForWriting, hlocate])
            (by rw [FileSystem.openForWriting, hlocate'])
        · exact .failed (by rw [FileSystem.openForWriting, hlocate])
            (by rw [FileSystem.openForWriting, hlocate'])
        · exact .opened (by rw [FileSystem.openForWriting, hlocate])
            (by rw [FileSystem.openForWriting, hlocate']) h

/-! ## Different contents -/

/-- All the difference between two file systems is what files hold that both have, at certain
locations. -/
structure DifferInContents (differ : Location → Prop) (fs fs' : FileSystem) : Prop where
  workingDirectory_eq : fs.workingDirectory = fs'.workingDirectory
  nodeAt_eq_or : ∀ loc, fs.nodeAt loc = fs'.nodeAt loc ∨ differ loc ∧
    ∃ contents contents', fs.nodeAt loc = some (.file contents) ∧
      fs'.nodeAt loc = some (.file contents')

theorem DifferInContents.sameTree {differ : Location → Prop} (h : DifferInContents differ fs fs') :
    SameTree fs fs' := by
  refine ⟨h.workingDirectory_eq, ?_⟩
  intro loc
  rcases h.nodeAt_eq_or loc with heq | ⟨-, contents, contents', hfile, hfile'⟩
  · rw [heq]
  · rw [hfile, hfile']
    rfl

end KernelTools.FileSystem

import KernelTools.FileSystem.Access
import KernelTools.Proofs.FileSystem.Resolution

/-!
# The tree of a file system

What a path leads to, and why it leads nowhere, depends on the tree alone: on the names, on what kind
of node lies there, and on what the links hold.  The contents of files have no part in it, and
neither has the order in which the entries are kept.

Main results:

- Theorem {lit}`SameTree.locate_eq`: in file systems with the same tree a path leads to the same
  place, or is to blame for the same fault.
- Theorem {lit}`SameTree.list_eq_error_iff`: the same paths cannot be listed, for the same reasons.
-/

namespace KernelTools

/-! ## Nodes without contents -/

/-- A node without what a file holds. -/
def Node.bare : Node → Node
  | .file _ => .file []
  | node => node

@[simp]
theorem Node.bare_eq_directory_iff {node : Node} : node.bare = .directory ↔ node = .directory := by
  cases node <;> simp [Node.bare]

@[simp]
theorem Node.bare_eq_link_iff {node : Node} {text : Text} :
    node.bare = .link text ↔ node = .link text := by
  cases node <;> simp [Node.bare]

namespace FileSystem

/-- A target without what a file holds. -/
def Target.bare : Target → Target
  | .present loc node => .present loc node.bare
  | .absent dir name => .absent dir name

/-- Two file systems have the same names, kinds of nodes and link targets, and paths start from the
same directory; what their files hold may differ. -/
structure SameTree (fs fs' : FileSystem) : Prop where
  workingDirectory_eq : fs.workingDirectory = fs'.workingDirectory
  bareAt_eq : ∀ loc, (fs.nodeAt loc).map Node.bare = (fs'.nodeAt loc).map Node.bare

namespace SameTree

variable {fs fs' : FileSystem} {loc : Location} {node : Node} {path : Text}

theorem refl (fs : FileSystem) : SameTree fs fs :=
  ⟨rfl, fun _ => rfl⟩

theorem symm (h : SameTree fs fs') : SameTree fs' fs :=
  ⟨h.workingDirectory_eq.symm, fun loc => (h.bareAt_eq loc).symm⟩

/-- A node has its like in the other file system. -/
theorem exists_nodeAt (h : SameTree fs fs') (hnode : fs.nodeAt loc = some node) :
    ∃ node', fs'.nodeAt loc = some node' ∧ node'.bare = node.bare := by
  have hbare := h.bareAt_eq loc
  rw [hnode, Option.map_some, eq_comm, Option.map_eq_some_iff] at hbare
  exact hbare

theorem nodeAt_eq_none (h : SameTree fs fs') (hnode : fs.nodeAt loc = none) :
    fs'.nodeAt loc = none := by
  have hbare := h.bareAt_eq loc
  rwa [hnode, Option.map_none, eq_comm, Option.map_eq_none_iff] at hbare

theorem nodeAt_eq_directory (h : SameTree fs fs') (hnode : fs.nodeAt loc = some .directory) :
    fs'.nodeAt loc = some .directory := by
  rcases h.exists_nodeAt hnode with ⟨node', hnode', hbare⟩
  rw [hnode', Node.bare_eq_directory_iff.1 hbare]

theorem nodeAt_eq_directory_iff (h : SameTree fs fs') :
    fs.nodeAt loc = some .directory ↔ fs'.nodeAt loc = some .directory :=
  ⟨h.nodeAt_eq_directory, h.symm.nodeAt_eq_directory⟩

theorem nodeAt_eq_link {text : Text} (h : SameTree fs fs')
    (hnode : fs.nodeAt loc = some (.link text)) : fs'.nodeAt loc = some (.link text) := by
  rcases h.exists_nodeAt hnode with ⟨node', hnode', hbare⟩
  rw [hnode', Node.bare_eq_link_iff.1 hbare]

/-- A node that is no directory and no link has its like in the other file system. -/
theorem exists_leafAt (h : SameTree fs fs') (hnode : fs.nodeAt loc = some node)
    (hleaf : node ≠ .directory ∧ ∀ text, node ≠ .link text) :
    ∃ node', fs'.nodeAt loc = some node' ∧ node'.bare = node.bare ∧
      node' ≠ .directory ∧ ∀ text, node' ≠ .link text := by
  rcases h.exists_nodeAt hnode with ⟨node', hnode', hbare⟩
  refine ⟨node', hnode', hbare, ?_, ?_⟩
  · rw [Ne, ← Node.bare_eq_directory_iff, hbare, Node.bare_eq_directory_iff]
    exact hleaf.1
  · intro text
    rw [Ne, ← Node.bare_eq_link_iff, hbare, Node.bare_eq_link_iff]
    exact hleaf.2 text

end SameTree

/-- Files stored at one location keep the tree the same, whatever they hold. -/
theorem SameTree.put_file {fs fs' : FileSystem} (h : SameTree fs fs') (name : Name) (dir : Location)
    (contents contents' : Bytes) :
    SameTree (fs.put (name :: dir) (.file contents)) (fs'.put (name :: dir) (.file contents')) := by
  refine ⟨h.workingDirectory_eq, ?_⟩
  intro loc
  rw [nodeAt_put, nodeAt_put]
  by_cases hloc : loc = name :: dir
  · rw [if_pos hloc, if_pos hloc]
    rfl
  · rw [if_neg hloc, if_neg hloc, h.bareAt_eq]

/-- Whatever a file holds, the tree is the same. -/
theorem sameTree_put_file (fs : FileSystem) (name : Name) (dir : Location)
    (contents contents' : List UInt8) :
    SameTree (fs.put (name :: dir) (.file contents)) (fs.put (name :: dir) (.file contents')) :=
  (SameTree.refl fs).put_file name dir contents contents'

/-! ## Resolution -/

variable {fs fs' : FileSystem} {purpose : Purpose} {links : Nat} {dir : Location} {name : Name}
  {rest : List Path.Step} {slash : Bool} {path : Text}

/-- A step down to a file or a device has to be the last one. -/
theorem resolve_leaf {node : Node} (hslash : ¬ AsksForDirectory purpose rest slash)
    (hdir : fs.nodeAt dir = some .directory) (hnode : fs.nodeAt (name :: dir) = some node)
    (hleaf : node ≠ .directory ∧ ∀ text, node ≠ .link text) :
    fs.resolve purpose links dir (.down name :: rest) slash =
      if rest = [] ∧ slash = false then .ok (.present (name :: dir) node)
      else .error .notADirectory := by
  rw [AsksForDirectory] at hslash
  rw [resolve, if_neg hslash]
  cases node with
  | directory => exact absurd rfl hleaf.1
  | link text => exact absurd rfl (hleaf.2 text)
  | _ => simp [hdir, hnode]

/-- Where the tree is the same, resolution finds the same place or the same fault. -/
theorem SameTree.resolve_eq (h : SameTree fs fs') (purpose : Purpose) (links : Nat)
    (dir : Location) (steps : List Path.Step) (slash : Bool) :
    (fs.resolve purpose links dir steps slash).map Target.bare =
      (fs'.resolve purpose links dir steps slash).map Target.bare := by
  fun_induction resolve fs purpose links dir steps slash with
  | case1 links dir slash hdir => simp [resolve, h.nodeAt_eq_directory hdir]
  | case2 links dir slash hdir =>
    rw [h.nodeAt_eq_directory_iff] at hdir
    simp [resolve, hdir]
  | case3 links dir slash rest ih => rw [ih, resolve]
  | case4 links dir slash rest ih => rw [ih, resolve]
  | case5 links dir slash rest hslash => rw [resolve, if_pos hslash]
  | case6 links dir slash rest hslash => rw [resolve, if_neg hslash]
  | case7 links dir slash name rest hslash => rw [resolve, if_pos hslash]
  | case8 links dir slash name rest hslash hdir =>
    rw [Ne, h.nodeAt_eq_directory_iff] at hdir
    rw [resolve, if_neg hslash, if_pos hdir]
  | case9 links dir slash name hdir hnode hslash =>
    rw [resolve, if_neg hslash]
    simp [h.nodeAt_eq_directory (not_not.1 hdir), h.nodeAt_eq_none hnode]
  | case10 links dir slash name rest hslash hdir hnode hrest =>
    rw [resolve, if_neg hslash]
    simp [h.nodeAt_eq_directory (not_not.1 hdir), h.nodeAt_eq_none hnode, hrest]
  | case11 links dir slash name rest hslash hdir hnode ih =>
    rw [ih, eq_comm, resolve, if_neg hslash]
    simp [h.nodeAt_eq_directory (not_not.1 hdir), h.nodeAt_eq_directory hnode]
  | case12 links dir slash name rest hslash hdir text hnode hentry =>
    rw [resolve, if_neg hslash]
    simp [h.nodeAt_eq_directory (not_not.1 hdir), h.nodeAt_eq_link hnode, hentry]
  | case13 dir slash name rest hslash hdir text hnode hentry =>
    rw [resolve, if_neg hslash]
    simp [h.nodeAt_eq_directory (not_not.1 hdir), h.nodeAt_eq_link hnode, hentry]
  | case14 dir slash name rest hslash hdir text hnode hentry links ih =>
    rw [eq_comm, resolve, if_neg hslash]
    simpa [h.nodeAt_eq_directory (not_not.1 hdir), h.nodeAt_eq_link hnode, hentry] using ih.symm
  | case15 links dir slash name rest hslash hdir node hdirectory hlink hnode hend =>
    rcases h.exists_leafAt hnode ⟨hdirectory, hlink⟩ with ⟨node', hnode', hbare, hleaf⟩
    rw [resolve_leaf hslash (h.nodeAt_eq_directory (not_not.1 hdir)) hnode' hleaf, if_pos hend]
    simp [Except.map, Target.bare, hbare]
  | case16 links dir slash name rest hslash hdir node hdirectory hlink hnode hend =>
    rcases h.exists_leafAt hnode ⟨hdirectory, hlink⟩ with ⟨node', hnode', -, hleaf⟩
    rw [resolve_leaf hslash (h.nodeAt_eq_directory (not_not.1 hdir)) hnode' hleaf, if_neg hend]

/-- Where the tree is the same, a path leads to the same place, or is to blame for the same fault. -/
theorem SameTree.locate_eq (h : SameTree fs fs') (purpose : Purpose) (path : Text) :
    (fs.locate purpose path).map Target.bare = (fs'.locate purpose path).map Target.bare := by
  unfold locate
  split_ifs
  · rfl
  · rfl
  · rfl
  · rw [h.workingDirectory_eq]
    exact h.resolve_eq purpose maxLinks _ _ _

/-- A target has its like in the other file system. -/
theorem SameTree.exists_locate (h : SameTree fs fs') {target : Target}
    (hlocate : fs.locate purpose path = .ok target) :
    ∃ target', fs'.locate purpose path = .ok target' ∧ target'.bare = target.bare := by
  have heq := h.locate_eq purpose path
  rw [hlocate] at heq
  cases hlocate' : fs'.locate purpose path with
  | error e =>
    rw [hlocate'] at heq
    cases heq
  | ok target' =>
    rw [hlocate'] at heq
    exact ⟨target', rfl, (Except.ok.inj heq).symm⟩

/-- The same paths lead nowhere, and are to blame for the same fault. -/
theorem SameTree.locate_eq_error (h : SameTree fs fs') {e : IoError}
    (hlocate : fs.locate purpose path = .error e) : fs'.locate purpose path = .error e := by
  have heq := h.locate_eq purpose path
  rw [hlocate] at heq
  cases hlocate' : fs'.locate purpose path with
  | error e' =>
    rw [hlocate'] at heq
    exact heq.symm
  | ok target =>
    rw [hlocate'] at heq
    cases heq

/-! ## Listing -/

/-- Why the directory that was looked for cannot be listed, if it cannot. -/
def listFault : Except IoError Target → Option IoError
  | .error e => some e
  | .ok (.absent _ _) => some .notFound
  | .ok (.present _ .directory) => none
  | .ok (.present _ _) => some .notADirectory

theorem listFault_map_bare (outcome : Except IoError Target) :
    listFault (outcome.map Target.bare) = listFault outcome := by
  cases outcome with
  | error e => rfl
  | ok target =>
    cases target with
    | absent dir name => rfl
    | present loc node => cases node <;> rfl

theorem list_eq_error_iff {e : IoError} :
    fs.list path = .error e ↔ listFault (fs.locate .use path) = some e := by
  unfold list
  cases fs.locate .use path with
  | error e' => simp [listFault]
  | ok target =>
    cases target with
    | absent dir name => simp [listFault]
    | present loc node => cases node <;> simp [listFault]

/-- The same paths cannot be listed, for the same reasons. -/
theorem SameTree.list_eq_error_iff (h : SameTree fs fs') {e : IoError} :
    fs.list path = .error e ↔ fs'.list path = .error e := by
  rw [FileSystem.list_eq_error_iff, FileSystem.list_eq_error_iff, ← listFault_map_bare,
    h.locate_eq, listFault_map_bare]

/-- A path that leads to a directory leads to the same one in the other file system. -/
theorem SameTree.locate_directory (h : SameTree fs fs') {loc : Location}
    (hlocate : fs.locate purpose path = .ok (.present loc .directory)) :
    fs'.locate purpose path = .ok (.present loc .directory) := by
  rcases h.exists_locate hlocate with ⟨target, hlocate', hbare⟩
  cases target with
  | absent dir name => cases hbare
  | present loc' node =>
    obtain ⟨rfl, hnode⟩ := Target.present.inj hbare
    rw [hlocate', Node.bare_eq_directory_iff.1 hnode]

end FileSystem

end KernelTools

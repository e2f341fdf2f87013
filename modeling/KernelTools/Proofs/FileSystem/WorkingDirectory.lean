import KernelTools.FileSystem.Editing
import KernelTools.Proofs.FileSystem.Writing

/-!
# The working directory

A relative path starts from the working directory.  It may as well be put behind the path of that
directory: as long as the directory and those above it are there, the names in front lead down to it,
and what follows is the path as it was.  The only thing that can go wrong is that the whole becomes too
long.

Main results:

- Theorem {lit}`Settled.of_sameFrame`: writing files does not take the working directory away.
- Theorem {lit}`locate_anchored`: a path leads to the same place behind the path of the working
  directory.
-/

namespace KernelTools.FileSystem

variable {fs fs' : FileSystem} {links : Nat} {dir : Location} {names : List Name}
  {rest : List Path.Step} {slash : Bool} {path : Text}

/-! ## Being there -/

/-- A fresh file system has its working directory. -/
theorem settled_fresh : fresh.Settled := by
  intro dir h
  rcases List.suffix_cons_iff.1 h with rfl | hroot
  · decide +kernel
  · rw [List.suffix_nil.1 hroot, nodeAt_root]

/-- Writing files does not take the working directory away. -/
theorem Settled.of_sameFrame (h : fs.Settled) (hframe : SameFrame fs fs') : fs'.Settled := by
  intro dir hdir
  rw [← hframe.workingDirectory_eq] at hdir
  exact hframe.nodeAt_eq (h dir hdir) (by simp)

/-! ## The path of the working directory -/

/-- The path of the working directory: its name behind those of the directories above it. -/
def workingPath (fs : FileSystem) : Text :=
  fs.workingDirectory.reverse.foldl Path.join ['/']

/-- A path behind the path of the working directory; one that starts at the root stands for itself. -/
def anchored (fs : FileSystem) (path : Text) : Text :=
  if Path.isAbsolute path then path
  else fs.workingPath ++ Path.separator fs.workingPath ++ path

theorem anchored_of_relative (h : Path.isAbsolute path = false) :
    fs.anchored path = fs.workingPath ++ Path.separator fs.workingPath ++ path := by
  rw [anchored, h, if_neg Bool.false_ne_true]

theorem isAbsolute_anchored (fs : FileSystem) (path : Text) :
    Path.isAbsolute (fs.anchored path) = true := by
  cases habsolute : Path.isAbsolute path with
  | true => rw [anchored, if_pos habsolute, habsolute]
  | false =>
    have hworking : Path.isAbsolute fs.workingPath = true :=
      Path.isAbsolute_foldl_join (List.cons_ne_nil _ _) _
    rw [anchored_of_relative habsolute, List.append_assoc]
    exact Path.isAbsolute_append hworking _

theorem nul_mem_anchored : '\x00' ∈ fs.anchored path ↔ '\x00' ∈ path := by
  cases habsolute : Path.isAbsolute path with
  | true => rw [anchored, if_pos habsolute]
  | false =>
    have hworking : '\x00' ∉ fs.workingPath := fun h => by simpa using Path.nul_mem_foldl_join.1 h
    simp [anchored_of_relative habsolute, hworking, Path.nul_not_mem_separator]

/-- In front of the steps of a relative path stand those down to the working directory. -/
theorem steps_anchored (h : Path.isAbsolute path = false) :
    Path.steps (fs.anchored path) = fs.workingDirectory.reverse.map .down ++ Path.steps path := by
  have hroot : Path.steps ['/'] = [] := by decide
  rw [anchored_of_relative h, Path.steps_append_separator, workingPath, Path.steps_foldl_join, hroot,
    List.nil_append]

/-- The names on the way lead down to a directory, where the rest of a path is left. -/
theorem resolve_down
    (hdirs : ∀ front, front <+: names → fs.nodeAt (front.reverse ++ dir) = some .directory) :
    fs.resolve .use links dir (names.map .down ++ rest) slash =
      fs.resolve .use links (names.reverse ++ dir) rest slash := by
  induction names generalizing dir with
  | nil => rfl
  | cons name names ih =>
    have hdir : fs.nodeAt dir = some .directory := hdirs [] List.nil_prefix
    have hnode : fs.nodeAt (name :: dir) = some .directory := hdirs [name] (by simp)
    have hbelow : ∀ front, front <+: names →
        fs.nodeAt (front.reverse ++ name :: dir) = some .directory := by
      intro front hfront
      simpa using hdirs (name :: front) ((List.prefix_cons_inj name).2 hfront)
    rw [List.map_cons, List.cons_append, resolve]
    simp only [reduceCtorEq, false_and, if_false, hdir, ne_eq, not_true, hnode]
    rw [ih hbelow]
    simp

/-- A relative path behind the path of the working directory is taken from that directory. -/
theorem locate_anchored_eq (h : fs.Settled) (hrelative : Path.isAbsolute path = false)
    (hnul : '\x00' ∉ path) (hoctets : (fs.anchored path).octets ≤ Path.maxOctets) :
    fs.locate .use (fs.anchored path) =
      fs.resolve .use maxLinks fs.workingDirectory (Path.steps path)
        (Path.endsInSlash (fs.anchored path)) := by
  have habsolute := isAbsolute_anchored fs path
  have hne : fs.anchored path ≠ [] := by
    intro hnil
    rw [hnil] at habsolute
    contradiction
  have hdirs : ∀ front, front <+: fs.workingDirectory.reverse →
      fs.nodeAt (front.reverse ++ []) = some .directory := by
    intro front hfront
    rw [List.append_nil]
    exact h _ (by simpa using List.reverse_suffix.2 hfront)
  rw [locate, if_neg (nul_mem_anchored.not.2 hnul), if_neg hne, if_neg (Nat.not_lt.2 hoctets), startOf,
    if_pos habsolute, steps_anchored hrelative, resolve_down hdirs, List.reverse_reverse,
    List.append_nil]

/-- A path leads to the same place behind the path of the working directory, or fails in the same
way, provided that it does not become too long. -/
theorem locate_anchored (h : fs.Settled) (hne : path ≠ [])
    (hoctets : (fs.anchored path).octets ≤ Path.maxOctets) :
    fs.locate .use (fs.anchored path) = fs.locate .use path := by
  cases hrelative : Path.isAbsolute path with
  | true => rw [anchored, if_pos hrelative]
  | false =>
    by_cases hnul : '\x00' ∈ path
    · rw [locate, locate, if_pos hnul, if_pos (nul_mem_anchored.2 hnul)]
    · have hlength : path.octets ≤ (fs.anchored path).octets := by
        rw [anchored_of_relative hrelative, Text.octets_append]
        exact Nat.le_add_left _ _
      have hslash : Path.endsInSlash (fs.anchored path) = Path.endsInSlash path := by
        rw [anchored_of_relative hrelative, Path.endsInSlash_append hne]
      rw [locate_anchored_eq h hrelative hnul hoctets, hslash, locate, if_neg hnul, if_neg hne,
        if_neg (Nat.not_lt.2 (Nat.le_trans hlength hoctets)), startOf, hrelative,
        if_neg Bool.false_ne_true]

/-- What a path reads as it reads behind the path of the working directory. -/
theorem read_anchored (h : fs.Settled) (hne : path ≠ [])
    (hoctets : (fs.anchored path).octets ≤ Path.maxOctets) :
    fs.read (fs.anchored path) = fs.read path := by
  rw [read, read, locate_anchored h hne hoctets]

/-- The empty path leads nowhere, and behind the path of the working directory to that directory. -/
theorem read_anchored_nil (h : fs.Settled) (hoctets : (fs.anchored []).octets ≤ Path.maxOctets) :
    fs.read (fs.anchored []) = .error .isADirectory := by
  have hdir : fs.nodeAt fs.workingDirectory = some .directory := h _ List.suffix_rfl
  have hsteps : Path.steps [] = [] := by decide
  rw [read, locate_anchored_eq h rfl List.not_mem_nil hoctets, hsteps, resolve, if_pos hdir]

/-- What is present under a path is present behind the path of the working directory. -/
theorem isPresent_anchored (h : fs.Settled) (hne : path ≠ [])
    (hoctets : (fs.anchored path).octets ≤ Path.maxOctets) :
    fs.isPresent (fs.anchored path) = fs.isPresent path := by
  rw [isPresent, isPresent, locate_anchored h hne hoctets]

end KernelTools.FileSystem

import KernelTools.Path

/-!
# File systems

A file system is a finite map from locations to nodes.  A location is the list of names on the way
from an entry up to the root, the entry's own name first, so that a directory is the tail of its
entries' locations.  The root itself is always there and always a directory.

The tools never create hard links, so a location is as good as the identity of the file that lies
there.

Relative paths start from the working directory.  If that is gone no such path leads anywhere, not even
{lit}`.`, which an operating system may still open; so the directory is taken to be there.
{lit}`Settled` says that it is, and {lit}`settled_foldl_fsAfter` that the tools leave it there.

Main results:

- Theorem {lit}`nodeAt_put`: storing a node changes what lies at its location and nothing else.
- Theorem {lit}`mem_children`: the children of a directory are the entries one name below it.
-/

namespace KernelTools

/-! ## Nodes and locations -/

/-- What lies at a location. -/
inductive Node
  | file (contents : Bytes)
  | directory
  /-- A symbolic link with the path it holds. -/
  | link (target : Text)
  /-- The device that swallows what is written to it and reads as empty. -/
  | nullDevice
deriving DecidableEq

/-- A place in a file system: the names from the entry up to the root. -/
abbrev Location := List Name

/-- Whether a location is another or lies beneath it. -/
def Location.isWithin (loc top : Location) : Bool :=
  decide (top <:+ loc)

/-- Replaces the top of a location; locations outside it stay. -/
def Location.rebase (loc source dest : Location) : Location :=
  if source <:+ loc then loc.take (loc.length - source.length) ++ dest else loc

/-- A finite map from locations to nodes, with the directory that relative paths start from, which is
taken to be there. -/
structure FileSystem where
  entries : List (Location × Node)
  distinct : (entries.map Prod.fst).Nodup
  workingDirectory : Location

namespace FileSystem

/-- The file system that holds nothing but the root. -/
def empty : FileSystem :=
  ⟨[], List.nodup_nil, []⟩

/-- What lies at a location; the root is a directory. -/
def nodeAt (fs : FileSystem) : Location → Option Node
  | [] => some .directory
  | name :: dir => fs.entries.lookup (name :: dir)

@[simp]
theorem nodeAt_root (fs : FileSystem) : fs.nodeAt [] = some .directory :=
  rfl

/-- The working directory is there, and so are the directories above it. -/
def Settled (fs : FileSystem) : Prop :=
  ∀ dir, dir <:+ fs.workingDirectory → fs.nodeAt dir = some .directory

/-! ## Storing a node -/

/-- Replaces the node at a location in a list of entries, or adds an entry at its end. -/
def assign (loc : Location) (node : Node) : List (Location × Node) → List (Location × Node)
  | [] => [(loc, node)]
  | entry :: rest =>
    if entry.1 = loc then (loc, node) :: rest else entry :: assign loc node rest

theorem mem_keys_assign {loc l : Location} {node : Node} {entries : List (Location × Node)} :
    l ∈ (assign loc node entries).map Prod.fst ↔ l = loc ∨ l ∈ entries.map Prod.fst := by
  induction entries with
  | nil => simp [assign]
  | cons entry rest ih =>
    rw [assign]
    split
    · next h => simp [← h]
    · simp only [List.map_cons, List.mem_cons, ih]
      grind

theorem nodup_keys_assign {loc : Location} {node : Node} {entries : List (Location × Node)}
    (h : (entries.map Prod.fst).Nodup) : ((assign loc node entries).map Prod.fst).Nodup := by
  induction entries with
  | nil => simp [assign]
  | cons entry rest ih =>
    rw [List.map_cons, List.nodup_cons] at h
    rw [assign]
    split
    · next heq => simpa [← heq] using h
    · next hne =>
      rw [List.map_cons, List.nodup_cons, mem_keys_assign]
      exact ⟨fun hmem => hmem.elim hne h.1, ih h.2⟩

theorem lookup_eq_some_iff {loc : Location} {node : Node} {entries : List (Location × Node)}
    (h : (entries.map Prod.fst).Nodup) :
    entries.lookup loc = some node ↔ (loc, node) ∈ entries := by
  induction entries with
  | nil => simp
  | cons entry rest ih =>
    rw [List.map_cons, List.nodup_cons] at h
    rw [List.lookup_cons, List.mem_cons]
    split
    · next heq =>
      have hkey : loc = entry.1 := by simpa using heq
      have hfresh : (loc, node) ∉ rest := fun hmem =>
        h.1 (hkey ▸ List.mem_map_of_mem (f := Prod.fst) hmem)
      grind
    · next hne => grind

theorem lookup_assign (loc l : Location) (node : Node) (entries : List (Location × Node)) :
    (assign loc node entries).lookup l = if l = loc then some node else entries.lookup l := by
  induction entries with
  | nil =>
    rw [assign, List.lookup_cons, List.lookup_nil]
    grind
  | cons entry rest ih =>
    rw [assign]
    split
    · next heq =>
      rw [List.lookup_cons, List.lookup_cons]
      grind
    · next hne =>
      rw [List.lookup_cons, List.lookup_cons, ih]
      grind

theorem assign_assign (loc : Location) (a b : Node) (entries : List (Location × Node)) :
    assign loc b (assign loc a entries) = assign loc b entries := by
  induction entries with
  | nil => simp [assign]
  | cons entry rest ih => grind [assign]

/-- Stores a node at a location. -/
def put (fs : FileSystem) (loc : Location) (node : Node) : FileSystem where
  entries := assign loc node fs.entries
  distinct := nodup_keys_assign fs.distinct
  workingDirectory := fs.workingDirectory

/-- Storing a node changes what lies at its location and nothing else. -/
theorem nodeAt_put (fs : FileSystem) (name : Name) (dir l : Location) (node : Node) :
    (fs.put (name :: dir) node).nodeAt l = if l = name :: dir then some node else fs.nodeAt l := by
  cases l with
  | nil => simp [nodeAt]
  | cons n d => simp only [nodeAt, put, lookup_assign]

/-- A node lies at a location when the entries say so. -/
theorem nodeAt_eq_some_iff {fs : FileSystem} {name : Name} {dir : Location} {node : Node} :
    fs.nodeAt (name :: dir) = some node ↔ (name :: dir, node) ∈ fs.entries :=
  lookup_eq_some_iff fs.distinct

@[simp]
theorem workingDirectory_put (fs : FileSystem) (loc : Location) (node : Node) :
    (fs.put loc node).workingDirectory = fs.workingDirectory :=
  rfl

/-- Of two nodes stored at one location the second remains. -/
@[simp]
theorem put_put (fs : FileSystem) (loc : Location) (a b : Node) :
    (fs.put loc a).put loc b = fs.put loc b := by
  simp only [put, assign_assign]

/-! ## Children of a directory -/

/-- The name and node of an entry that lies directly in a directory. -/
def childOf? (dir : Location) : Location × Node → Option (Name × Node)
  | ([], _) => none
  | (name :: parent, node) => if parent = dir then some (name, node) else none

/-- The entries of a directory, in the order in which the file system keeps them. -/
def children (fs : FileSystem) (dir : Location) : List (Name × Node) :=
  fs.entries.filterMap (childOf? dir)

/-- An entry is a child of a directory when it lies one name below it. -/
theorem childOf?_eq_some_iff {dir : Location} {entry : Location × Node} {name : Name}
    {node : Node} : childOf? dir entry = some (name, node) ↔ entry = (name :: dir, node) := by
  obtain ⟨loc, node'⟩ := entry
  cases loc with
  | nil => simp [childOf?]
  | cons n d => grind [childOf?]

/-- The children of a directory are the entries one name below it. -/
theorem mem_children {fs : FileSystem} {dir : Location} {name : Name} {node : Node} :
    (name, node) ∈ fs.children dir ↔ (name :: dir, node) ∈ fs.entries := by
  simp only [children, List.mem_filterMap, childOf?_eq_some_iff, exists_eq_right]

/-- The children of a directory have different names. -/
theorem nodup_names_children (fs : FileSystem) (dir : Location) :
    ((fs.children dir).map Prod.fst).Nodup := by
  have h := fs.distinct
  rw [List.Nodup, List.pairwise_map] at h ⊢
  refine h.filterMap (childOf? dir) ?_
  intro a b hne x hx y hy heq
  obtain rfl := childOf?_eq_some_iff.1 hx
  obtain rfl := childOf?_eq_some_iff.1 hy
  exact hne (congrArg (· :: dir) heq)

/-! ## Removing and moving -/

/-- Removes a location and everything beneath it. -/
def remove (fs : FileSystem) (top : Location) : FileSystem where
  entries := fs.entries.filter fun entry => !entry.1.isWithin top
  distinct := fs.distinct.sublist (List.filter_sublist.map Prod.fst)
  workingDirectory := fs.workingDirectory

private theorem rebase_ne {source dest k l : Location} (hk : ¬ dest <:+ k) (hl : ¬ dest <:+ l)
    (hne : k ≠ l) : k.rebase source dest ≠ l.rebase source dest := by
  rw [Location.rebase, Location.rebase]
  split <;> split
  · next hks hls =>
    obtain ⟨a, rfl⟩ := hks
    obtain ⟨b, rfl⟩ := hls
    simp_all
  · intro heq
    exact hl (heq ▸ List.suffix_append _ _)
  · intro heq
    exact hk (heq ▸ List.suffix_append _ _)
  · exact hne

/-- Moves a location and everything beneath it; what lay at the destination goes. -/
def relocate (fs : FileSystem) (source dest : Location) : FileSystem where
  entries := (fs.remove dest).entries.map fun entry => (entry.1.rebase source dest, entry.2)
  distinct := by
    rw [List.map_map, List.Nodup, List.pairwise_map]
    have h := (fs.remove dest).distinct
    rw [List.Nodup, List.pairwise_map] at h
    refine h.imp_of_mem fun {a b} ha hb hne => rebase_ne ?_ ?_ hne
    · simpa [remove, Location.isWithin] using (List.mem_filter.1 ha).2
    · simpa [remove, Location.isWithin] using (List.mem_filter.1 hb).2
  workingDirectory := fs.workingDirectory

end FileSystem

end KernelTools

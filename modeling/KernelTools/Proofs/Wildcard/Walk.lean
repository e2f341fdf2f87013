import KernelTools.Proofs.FileSystem.Resolution
import KernelTools.Proofs.Path.NameOrder
import KernelTools.Wildcard.Walk
import Mathlib.Data.List.Pairwise

/-!
# The directories that a search visits

A search goes down from its root, so every directory that it comes to is named by a route: the names
from the root on.  The routes are those that lead through real directories whose paths can be listed,
and they come in the order of their names, each before those that continue it.

Main results:

- Theorem {lit}`pairwise_sorted`: the entries of a directory are sorted strictly by name.
- Theorem {lit}`bounded_list`: holding a file system to the bound on paths changes none of its answers.
- Theorem {lit}`walk_of_ok`: a walk lists its root and then goes through the subdirectories.
- Theorem {lit}`exists_routes`: whatever a lister refuses, the visits of a walk are those of the routes
  that it can take, in strictly increasing order.
- Theorem {lit}`walksRoutes`: the same of a file system, of which nothing is refused but paths that are
  too long.
-/

namespace KernelTools.Wildcard

open FileSystem (Entry)

/-! ## Listing a directory -/

/-- The entries of a directory as the file system keeps them. -/
def entriesAt (fs : FileSystem) (loc : Location) : List Entry :=
  (fs.children loc).map fun (name, node) => ⟨name, decide (node = .directory)⟩

/-- A lister that answers what a file system holds, the entries in any order. -/
def Lister.Reads (lister : Lister) (fs : FileSystem) : Prop :=
  ∀ path, match fs.list path with
    | .ok entries => ∃ entries', lister path = .ok entries' ∧ entries'.Perm entries
    | .error e => lister path = .error e

/-- A lister that may refuse any directory at all, but answers what a file system holds when it does
not. -/
def Lister.ReadsInPart (lister : Lister) (fs : FileSystem) : Prop :=
  ∀ path entries, lister path = .ok entries →
    ∃ held, fs.list path = .ok held ∧ entries.Perm held

/-- A file system is read by its own lister. -/
theorem reads_list (fs : FileSystem) : Lister.Reads fs.list fs := by
  intro path
  cases fs.list path with
  | error e => rfl
  | ok entries => exact ⟨entries, rfl, .rfl⟩

theorem Lister.Reads.readsInPart {lister : Lister} {fs : FileSystem} (h : lister.Reads fs) :
    lister.ReadsInPart fs := by
  intro path entries hlisted
  have hread := h path
  cases hheld : fs.list path with
  | error e => simp [hheld, hlisted] at hread
  | ok held => simpa [hheld, hlisted] using hread

/-- A directory that a path leads to can be listed. -/
theorem list_of_locate {fs : FileSystem} {path : Text} {loc : Location}
    (h : fs.locate .use path = .ok (.present loc .directory)) :
    fs.list path = .ok (entriesAt fs loc) := by
  simp [FileSystem.list, h, entriesAt]

/-- What can be listed is a directory. -/
theorem locate_of_list {fs : FileSystem} {path : Text} {entries : List Entry}
    (h : fs.list path = .ok entries) :
    ∃ loc, fs.locate .use path = .ok (.present loc .directory) := by
  unfold FileSystem.list at h
  split at h
  · contradiction
  · contradiction
  · next loc hlocate => exact ⟨loc, hlocate⟩
  · contradiction

/-- The entries of a directory have different names. -/
theorem nodup_names_entriesAt (fs : FileSystem) (loc : Location) :
    ((entriesAt fs loc).map Entry.name).Nodup := by
  rw [entriesAt, List.map_map]
  exact fs.nodup_names_children loc

/-- An entry of a directory is a node one name below it. -/
theorem mem_entriesAt {fs : FileSystem} {loc : Location} {entry : Entry} :
    entry ∈ entriesAt fs loc ↔
      ∃ node, fs.nodeAt (entry.name :: loc) = some node ∧
        entry.isDirectory = decide (node = .directory) := by
  simp only [entriesAt, List.mem_map, Prod.exists, FileSystem.mem_children,
    ← FileSystem.nodeAt_eq_some_iff]
  constructor
  · rintro ⟨name, node, hnode, rfl⟩
    exact ⟨node, hnode, rfl⟩
  · rintro ⟨node, hnode, hdirectory⟩
    exact ⟨entry.name, node, hnode, by rw [← hdirectory]⟩

/-- Sorting entries of different names puts each strictly before the next. -/
theorem pairwise_sorted {entries : List Entry} (h : (entries.map Entry.name).Nodup) :
    (sorted entries).Pairwise fun a b => a.name.Before b.name := by
  have hsorted : (sorted entries).Pairwise fun a b => a.name.le b.name = true := by
    apply List.pairwise_mergeSort
    · intro a b c hab hbc
      exact Name.le_trans hab hbc
    · intro a b
      exact Name.le_total a.name b.name
  have hnodup : ((sorted entries).map Entry.name).Nodup :=
    ((List.mergeSort_perm entries _).map Entry.name).nodup_iff.2 h
  rw [List.Nodup, List.pairwise_map] at hnodup
  exact hsorted.imp₂ (fun _ _ hle hne => Name.before_of_le hle hne) hnodup

/-- A lister names each entry of a directory once, and refuses a path that is too long. -/
structure Lister.Lawful (lister : Lister) : Prop where
  nodup : ∀ path entries, lister path = .ok entries → (entries.map Entry.name).Nodup
  octets_le : ∀ path entries, lister path = .ok entries → path.octets ≤ Path.maxOctets

/-- What a lister lists is what lies in the directory that the path leads to. -/
theorem Lister.ReadsInPart.listed {lister : Lister} {fs : FileSystem} (h : lister.ReadsInPart fs)
    {path : Text} {entries : List Entry} (hlisted : lister path = .ok entries) :
    ∃ loc, fs.locate .use path = .ok (.present loc .directory) ∧ entries.Perm (entriesAt fs loc) := by
  rcases h path entries hlisted with ⟨held, hheld, hperm⟩
  rcases locate_of_list hheld with ⟨loc, hpath⟩
  rw [list_of_locate hpath] at hheld
  cases hheld
  exact ⟨loc, hpath, hperm⟩

/-- What is listed are the entries of the directory that the path leads to. -/
theorem Lister.ReadsInPart.mem_iff {lister : Lister} {fs : FileSystem} (h : lister.ReadsInPart fs)
    {path : Text} {loc : Location} {entries : List Entry} (hlisted : lister path = .ok entries)
    (hpath : fs.locate .use path = .ok (.present loc .directory)) (entry : Entry) :
    entry ∈ entries ↔ entry ∈ entriesAt fs loc := by
  rcases h.listed hlisted with ⟨loc', hpath', hperm⟩
  cases hpath.symm.trans hpath'
  exact hperm.mem_iff

theorem Lister.ReadsInPart.lawful {lister : Lister} {fs : FileSystem} (h : lister.ReadsInPart fs) :
    lister.Lawful := by
  constructor
  · intro path entries hlisted
    rcases h.listed hlisted with ⟨loc, -, hperm⟩
    exact (hperm.map Entry.name).nodup_iff.2 (nodup_names_entriesAt fs loc)
  · intro path entries hlisted
    rcases h.listed hlisted with ⟨loc, hpath, -⟩
    exact (FileSystem.locate_eq_ok_iff.1 hpath).2.2.1

/-! ## Paths that are too long -/

theorem Lister.bounded_of_error {lister : Lister} {path : Text} {e : IoError}
    (h : lister path = .error e) : lister.bounded.list path = .error e := by
  simp only [Lister.bounded, h]

theorem Lister.bounded_of_ok {lister : Lister} {path : Text} {entries : List Entry}
    (h : lister path = .ok entries) (hoctets : path.octets ≤ Path.maxOctets) :
    lister.bounded.list path = .ok entries := by
  simp only [Lister.bounded, h, if_pos hoctets]

/-- A lister with a bound refuses what is beyond it. -/
theorem BoundedLister.refused (lister : BoundedLister) {path : Text}
    (hoctets : Path.maxOctets < path.octets) : ∃ e, lister.list path = .error e := by
  cases hlist : lister.list path with
  | error e => exact ⟨e, rfl⟩
  | ok entries => exact absurd (lister.octets_le hlist) (Nat.not_le.2 hoctets)

/-- A lister that refuses such paths by itself is left as it is. -/
theorem Lister.Lawful.bounded_list {lister : Lister} (h : lister.Lawful) :
    lister.bounded.list = lister := by
  funext path
  cases hlist : lister path with
  | error e => exact Lister.bounded_of_error hlist
  | ok entries => exact Lister.bounded_of_ok hlist (h.octets_le path entries hlist)

/-- A file system never meets the bound: it refuses paths that are too long before. -/
theorem bounded_list (fs : FileSystem) : (Lister.bounded fs.list).list = fs.list :=
  (reads_list fs).readsInPart.lawful.bounded_list

/-! ## Routes -/

/-- The listing of a path names a subdirectory. -/
def Lister.NamesDirectory (lister : Lister) (path : Text) (name : Name) : Prop :=
  ∃ entries, lister path = .ok entries ∧ (⟨name, true⟩ : Entry) ∈ entries

/-- A route that a walk takes from a path: on the way the listing of each directory names the
next. -/
def Entered (lister : Lister) : (path : Text) → (route : List Name) → Prop
  | _, [] => True
  | path, name :: route =>
    lister.NamesDirectory path name ∧ Entered lister (Path.join path name) route

/-- A route from a directory through real directories: all but the last have a path that can be
listed. -/
def Reached (fs : FileSystem) : (path : Text) → (loc : Location) → (route : List Name) → Prop
  | _, _, [] => True
  | path, loc, name :: route =>
    fs.nodeAt (name :: loc) = some .directory ∧
      (route = [] ∨ (Path.join path name).octets ≤ Path.maxOctets ∧
        Reached fs (Path.join path name) (name :: loc) route)

/-- What a search does at the directory of a path. -/
def visitAt (lister : Lister) (path : Text) : Visit :=
  match lister path with
  | .ok entries => .listed path (sorted entries)
  | .error e => .skipped path e

/-- The visits at the directories of some routes from a path. -/
def visitsOf (lister : Lister) (path : Text) (routes : List (List Name)) : List Visit :=
  routes.map fun route => visitAt lister (route.foldl Path.join path)

/-- What a walk reports about a directory beneath its root, whether or not it can be listed. -/
def visitsBeneath (lister : BoundedLister) (path : Text) : List Visit :=
  match walk lister path with
  | .error e => [.skipped path e]
  | .ok visits => visits

/-- A walk fails when its root cannot be listed. -/
theorem walk_of_error {lister : BoundedLister} {path : Text} {e : IoError}
    (h : lister.list path = .error e) : walk lister path = .error e := by
  rw [walk]
  split
  · next h' =>
    cases h.symm.trans h'
    rfl
  · next h' => cases h.symm.trans h'

/-- A walk lists its root and then goes through the subdirectories in the order of their names. -/
theorem walk_of_ok {lister : BoundedLister} {path : Text} {entries : List Entry}
    (h : lister.list path = .ok entries) :
    walk lister path = .ok (.listed path (sorted entries) :: (sorted entries).flatMap fun entry =>
      if entry.isDirectory then visitsBeneath lister (Path.join path entry.name) else []) := by
  rw [walk]
  split
  · next h' => cases h.symm.trans h'
  · next h' =>
    cases h.symm.trans h'
    rfl

theorem visitsBeneath_of_error {lister : BoundedLister} {path : Text} {e : IoError}
    (h : lister.list path = .error e) : visitsBeneath lister path = [.skipped path e] := by
  rw [visitsBeneath, walk_of_error h]

/-- What a walk reports about a directory that is listed: the listing, and then the same about each
subdirectory. -/
theorem visitsBeneath_of_ok {lister : BoundedLister} {path : Text} {entries : List Entry}
    (h : lister.list path = .ok entries) :
    visitsBeneath lister path =
      .listed path (sorted entries) :: ((sorted entries).filter (·.isDirectory)).flatMap fun entry =>
        visitsBeneath lister (Path.join path entry.name) := by
  rw [visitsBeneath, walk_of_ok h]
  dsimp only
  congr 1
  induction sorted entries with
  | nil => rfl
  | cons entry rest ih => by_cases hdirectory : entry.isDirectory <;> simp [hdirectory, ih]

/-- Routes that start with the names of entries, in the order of these names, are strictly
increasing when those behind each name are. -/
theorem pairwise_routes {entries : List Entry}
    (hentries : entries.Pairwise fun a b => a.name.Before b.name)
    {routesOf : Name → List (List Name)}
    (hroutes : ∀ entry ∈ entries, (routesOf entry.name).Pairwise (List.Lex Name.Before)) :
    ([] :: entries.flatMap fun entry => (routesOf entry.name).map (entry.name :: ·)).Pairwise
      (List.Lex Name.Before) := by
  rw [List.pairwise_cons, List.pairwise_flatMap]
  refine ⟨?_, ?_, ?_⟩
  · intro route hroute
    rcases List.mem_flatMap.1 hroute with ⟨entry, -, hroute⟩
    rcases List.mem_map.1 hroute with ⟨rest, -, rfl⟩
    exact .nil
  · intro entry hentry
    rw [List.pairwise_map]
    exact (hroutes entry hentry).imp fun h => .cons h
  · refine hentries.imp fun {a b} hbefore => ?_
    intro x hx y hy
    rcases List.mem_map.1 hx with ⟨_, -, rfl⟩
    rcases List.mem_map.1 hy with ⟨_, -, rfl⟩
    exact .rel hbefore

/-- The visits beneath a path are those of the routes that a walk takes from there, each once and in
strictly increasing order. -/
theorem exists_routes {lister : BoundedLister} (hlister : lister.list.Lawful) (path : Text) :
    ∃ routes : List (List Name), visitsBeneath lister path = visitsOf lister.list path routes ∧
      routes.Pairwise (List.Lex Name.Before) ∧
      ∀ route, route ∈ routes ↔ Entered lister.list path route := by
  cases hlist : lister.list path with
  | error e =>
    refine ⟨[[]], ?_, List.pairwise_singleton _ _, ?_⟩
    · simp [visitsBeneath_of_error hlist, visitsOf, visitAt, hlist]
    · intro route
      cases route with
      | nil => simp [Entered]
      | cons name rest => simp [Entered, Lister.NamesDirectory, hlist]
  | ok entries =>
    have hoctets : path.octets ≤ Path.maxOctets := lister.octets_le hlist
    have hbeneath (name : Name) := exists_routes hlister (Path.join path name)
    choose routesOf hvisits hpairwise hmem using hbeneath
    have hbefore : ((sorted entries).filter (·.isDirectory)).Pairwise
        fun a b => a.name.Before b.name :=
      (pairwise_sorted (hlister.nodup path entries hlist)).filter _
    refine ⟨[] :: ((sorted entries).filter (·.isDirectory)).flatMap fun entry =>
      (routesOf entry.name).map (entry.name :: ·), ?_,
      pairwise_routes hbefore fun entry _ => hpairwise entry.name, ?_⟩
    · have hroot : visitAt lister.list path = .listed path (sorted entries) := by
        rw [visitAt, hlist]
      rw [visitsBeneath_of_ok hlist, visitsOf, List.map_cons, List.foldl_nil, hroot,
        List.map_flatMap]
      simp only [hvisits, visitsOf, List.map_map, Function.comp_def, List.foldl_cons]
    · intro route
      cases route with
      | nil => simp [Entered]
      | cons name rest =>
        have hnamed : lister.list.NamesDirectory path name ↔ (⟨name, true⟩ : Entry) ∈ entries := by
          simp [Lister.NamesDirectory, hlist]
        simp only [Entered, hnamed, List.mem_cons, reduceCtorEq, false_or, List.mem_flatMap,
          List.mem_filter, sorted, List.mem_mergeSort, List.mem_map, List.cons.injEq, hmem]
        constructor
        · rintro ⟨⟨_, isDirectory⟩, ⟨hentry, hdirectory⟩, _, hrest, rfl, rfl⟩
          obtain rfl : isDirectory = true := hdirectory
          exact ⟨hentry, hrest⟩
        · rintro ⟨hentry, hrest⟩
          exact ⟨_, ⟨hentry, rfl⟩, rest, hrest, rfl, rfl⟩
-- Every step down makes the path longer, and paths that can be listed are of bounded length.
termination_by Path.maxOctets + 1 - path.octets
decreasing_by
  have := Path.octets_lt_join path name
  omega

/-- A walk of a directory that is listed visits the routes that it can take. -/
theorem exists_walk_routes {lister : Lister} (hlister : lister.Lawful) {path : Text}
    {entries : List Entry} (h : lister path = .ok entries) :
    ∃ routes : List (List Name), walk lister.bounded path = .ok (visitsOf lister path routes) ∧
      routes.Pairwise (List.Lex Name.Before) ∧
      ∀ route, route ∈ routes ↔ Entered lister path route := by
  have hbounded : lister.bounded.list = lister := hlister.bounded_list
  obtain ⟨routes, hvisits, hroutes⟩ := exists_routes (hbounded.symm ▸ hlister) path
  have hwalk := walk_of_ok (hbounded.symm ▸ h)
  rw [visitsBeneath, hwalk, hbounded] at hvisits
  rw [hbounded] at hroutes
  exact ⟨routes, by rw [hwalk, ← hvisits], hroutes⟩

/-! ## File systems -/

/-- A lister that reads a file system lists a directory that a path leads to; sorted, its entries
come strictly one before the other. -/
theorem Lister.Reads.listed {lister : Lister} {fs : FileSystem} (h : lister.Reads fs) {path : Text}
    {loc : Location} (hpath : fs.locate .use path = .ok (.present loc .directory)) :
    ∃ entries, lister path = .ok entries ∧
      (∀ entry, entry ∈ sorted entries ↔ entry ∈ entriesAt fs loc) ∧
      (sorted entries).Pairwise fun a b => a.name.Before b.name := by
  have hread := h path
  rw [list_of_locate hpath] at hread
  rcases hread with ⟨entries, hlisted, hperm⟩
  refine ⟨entries, hlisted, ?_, ?_⟩
  · intro entry
    rw [sorted, List.mem_mergeSort, hperm.mem_iff]
  · exact pairwise_sorted (h.readsInPart.lawful.nodup path entries hlisted)

/-- A lister that reads a file system lists no path that is too long. -/
theorem Lister.Reads.refused {lister : Lister} {fs : FileSystem} (h : lister.Reads fs) {path : Text}
    (hoctets : Path.maxOctets < path.octets) : ∃ e, lister path = .error e := by
  have hrefused := lister.bounded.refused hoctets
  rwa [h.readsInPart.lawful.bounded_list] at hrefused

/-- A subdirectory is named just when it is a real directory. -/
theorem Lister.Reads.namesDirectory_iff {lister : Lister} {fs : FileSystem} (h : lister.Reads fs)
    {path : Text} {loc : Location} (hpath : fs.locate .use path = .ok (.present loc .directory))
    {name : Name} : lister.NamesDirectory path name ↔ fs.nodeAt (name :: loc) = some .directory := by
  rcases h.listed hpath with ⟨entries, hlisted, hmem, -⟩
  have hentry := hmem ⟨name, true⟩
  rw [sorted, List.mem_mergeSort] at hentry
  simp [Lister.NamesDirectory, hlisted, hentry, mem_entriesAt]

/-- A walk takes the routes through real directories. -/
theorem entered_iff_reached {fs : FileSystem} {lister : Lister} (hlister : lister.Reads fs)
    {path : Text} {loc : Location} (hpath : fs.locate .use path = .ok (.present loc .directory))
    (route : List Name) : Entered lister path route ↔ Reached fs path loc route := by
  induction route generalizing path loc with
  | nil => simp [Entered, Reached]
  | cons name route ih =>
    rw [Entered, Reached, hlister.namesDirectory_iff hpath]
    apply and_congr_right
    intro hnode
    by_cases hoctets : (Path.join path name).octets ≤ Path.maxOctets
    · rw [ih (FileSystem.locate_join hpath hnode hoctets)]
      cases route with
      | nil => simp [Reached]
      | cons next route => simp [hoctets]
    · rcases hlister.refused (Nat.not_le.1 hoctets) with ⟨e, hrefused⟩
      cases route with
      | nil => simp [Entered]
      | cons next route => simp [Entered, Lister.NamesDirectory, hrefused, hoctets]

/-- The visits of a walk are those of the routes from its root, each once and in strictly increasing
order. -/
def WalksRoutes (fs : FileSystem) (lister : Lister) (path : Text) (loc : Location) : Prop :=
  ∃ routes : List (List Name), walk lister.bounded path = .ok (visitsOf lister path routes) ∧
    routes.Pairwise (List.Lex Name.Before) ∧ ∀ route, route ∈ routes ↔ Reached fs path loc route

/-- A walk visits the routes from its root, each once and in strictly increasing order. -/
theorem walksRoutes {fs : FileSystem} {lister : Lister} (hlister : lister.Reads fs)
    {path : Text} {loc : Location} (hpath : fs.locate .use path = .ok (.present loc .directory)) :
    WalksRoutes fs lister path loc := by
  rcases hlister.listed hpath with ⟨entries, hlisted, -⟩
  obtain ⟨routes, hwalk, hpairwise, hmem⟩ :=
    exists_walk_routes hlister.readsInPart.lawful hlisted
  refine ⟨routes, hwalk, hpairwise, ?_⟩
  intro route
  rw [hmem, entered_iff_reached hlister hpath]

end KernelTools.Wildcard

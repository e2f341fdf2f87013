import KernelTools.FileSystem.Editing
import KernelTools.Proofs.Wildcard.Walk

/-!
# What a search finds

A search finds the entries that match, wherever they lie beneath its root, provided that real
directories with paths that can be listed lead to them.  It finds each of them once, and in an order
that depends on the names alone: first by the directories on the way, then by the entry.

Main results:

- Theorem {lit}`openRoute_iff`: the routes that lead to hits are the visited ones that can be listed.
- Theorem {lit}`search_hits`: the results of a search, as routes and names in canonical order.
- Theorem {lit}`search_exact`: the same about the paths that a search returns.
-/

namespace KernelTools.Wildcard

open FileSystem (Entry)

variable {fs : FileSystem} {lister : Lister} {root : Text} {top : Location} {pattern : Pattern}

/-! ## Open routes -/

/-- A route from a root through real directories only, all of them with a path that can be
listed. -/
def OpenRoute (fs : FileSystem) (root : Text) (top : Location) (route : List Name) : Prop :=
  ∀ front, front ≠ [] → front <+: route →
    fs.nodeAt (front.reverse ++ top) = some .directory ∧
      (Path.below root front).octets ≤ Path.maxOctets

theorem openRoute_nil : OpenRoute fs root top [] := by
  intro front hne hfront
  exact absurd (List.prefix_nil.1 hfront) hne

/-- A route is open when its first directory is and the rest is open from there. -/
theorem openRoute_cons {name : Name} {route : List Name} :
    OpenRoute fs root top (name :: route) ↔
      fs.nodeAt (name :: top) = some .directory ∧
        (Path.join root name).octets ≤ Path.maxOctets ∧
        OpenRoute fs (Path.join root name) (name :: top) route := by
  have hbelow {front : List Name} (hne : front ≠ []) :
      Path.below root (name :: front) = Path.below (Path.join root name) front := by
    rw [← Path.foldl_join _ hne, ← Path.foldl_join _ (List.cons_ne_nil name front)]
    rfl
  have hlocation (front : List Name) :
      (name :: front).reverse ++ top = front.reverse ++ name :: top := by
    simp
  have hone : Path.below root [name] = Path.join root name := by
    rw [← Path.foldl_join _ (List.cons_ne_nil name [])]
    rfl
  constructor
  · intro h
    have hfirst := h [name] (List.cons_ne_nil _ _) (by simp)
    rw [hone] at hfirst
    refine ⟨hfirst.1, hfirst.2, ?_⟩
    intro front hne hfront
    rw [← hlocation, ← hbelow hne]
    exact h (name :: front) (List.cons_ne_nil _ _) ((List.prefix_cons_inj name).2 hfront)
  · rintro ⟨hnode, hoctets, h⟩ front hne hfront
    rcases List.prefix_cons_iff.1 hfront with rfl | ⟨rest, rfl, hrest⟩
    · exact absurd rfl hne
    · by_cases hnil : rest = []
      · rw [hnil, hone]
        exact ⟨hnode, hoctets⟩
      · rw [hlocation, hbelow hnil]
        exact h rest hnil hrest

/-- The open routes are those that a search visits and that can be listed. -/
theorem openRoute_iff {route : List Name} :
    OpenRoute fs root top route ↔
      Reached fs root top route ∧
        (route = [] ∨ (route.foldl Path.join root).octets ≤ Path.maxOctets) := by
  induction route generalizing root top with
  | nil => simp [openRoute_nil, Reached]
  | cons name route ih =>
    rw [openRoute_cons, ih, Reached, List.foldl_cons]
    cases route with
    | nil => simp [Reached]
    | cons next route => simp [and_assoc]

/-- An open route leads to the last of its directories. -/
theorem OpenRoute.locate {route : List Name} (h : OpenRoute fs root top route)
    (hroot : fs.locate .use root = .ok (.present top .directory)) :
    fs.locate .use (route.foldl Path.join root) =
      .ok (.present (route.reverse ++ top) .directory) := by
  induction route generalizing root top with
  | nil => exact hroot
  | cons name route ih =>
    rcases openRoute_cons.1 h with ⟨hnode, hoctets, h⟩
    rw [List.foldl_cons, ih h (FileSystem.locate_join hroot hnode hoctets)]
    simp

/-! ## Matches in one directory -/

/-- The names that match in the directory of a path, in their order. -/
def matchedNames (lister : Lister) (pattern : Pattern) (path : Text) : List Name :=
  match lister path with
  | .ok entries =>
    ((sorted entries).filter fun entry => pattern.matches entry.name.text).map Entry.name
  | .error _ => []

theorem matched_visitAt (path : Text) :
    (visitAt lister path).matched pattern =
      (matchedNames lister pattern path).map (Path.join path) := by
  unfold visitAt matchedNames
  cases lister path with
  | error e => rfl
  | ok entries => simp [Visit.matched]

/-- The names that match in a directory come strictly one before the other. -/
theorem pairwise_matchedNames (hlister : lister.Lawful) (path : Text) :
    (matchedNames lister pattern path).Pairwise Name.Before := by
  unfold matchedNames
  split
  · next entries hlisted =>
    rw [List.pairwise_map]
    exact (pairwise_sorted (hlister.nodup path entries hlisted)).filter _
  · exact .nil

/-- The names that match in a directory that is listed are those of its entries that match. -/
theorem mem_matchedNames (hlister : lister.ReadsInPart fs) {path : Text} {loc : Location}
    {entries : List Entry} (hlisted : lister path = .ok entries)
    (hpath : fs.locate .use path = .ok (.present loc .directory)) {name : Name} :
    name ∈ matchedNames lister pattern path ↔
      fs.nodeAt (name :: loc) ≠ none ∧ pattern.matches name.text = true := by
  have hmem := hlister.mem_iff hlisted hpath
  simp only [matchedNames, hlisted, List.mem_map, List.mem_filter, sorted, List.mem_mergeSort, hmem,
    mem_entriesAt]
  constructor
  · rintro ⟨entry, ⟨⟨node, hnode, -⟩, hmatches⟩, rfl⟩
    exact ⟨by simp [hnode], hmatches⟩
  · rintro ⟨hpresent, hmatches⟩
    rcases Option.ne_none_iff_exists'.1 hpresent with ⟨node, hnode⟩
    exact ⟨⟨name, decide (node = .directory)⟩, ⟨⟨node, hnode, rfl⟩, hmatches⟩, rfl⟩

/-! ## Hits -/

/-- An entry that a search is to find: an open route leads to its directory, it lies there, and the
pattern matches its name. -/
structure IsHit (fs : FileSystem) (root : Text) (top : Location) (pattern : Pattern)
    (parents : List Name) (name : Name) : Prop where
  isOpen : OpenRoute fs root top parents
  isEntry : fs.nodeAt (name :: (parents.reverse ++ top)) ≠ none
  isMatched : pattern.matches name.text = true

/-- Hits are ordered by the directories on the way, a directory before those beneath it, and then by
the name of the entry. -/
abbrev HitBefore : List Name × Name → List Name × Name → Prop :=
  Prod.Lex (List.Lex Name.Before) Name.Before

/-- The names that match at the end of a visited route are those of the hits there. -/
theorem mem_matchedNames_of_reached (hlister : lister.Reads fs)
    (hroot : fs.locate .use root = .ok (.present top .directory)) {route : List Name}
    (hroute : Reached fs root top route) {name : Name} :
    name ∈ matchedNames lister pattern (route.foldl Path.join root) ↔
      IsHit fs root top pattern route name := by
  by_cases hopen : OpenRoute fs root top route
  · have hpath := hopen.locate hroot
    rcases hlister.listed hpath with ⟨entries, hlisted, -⟩
    rw [mem_matchedNames hlister.readsInPart hlisted hpath]
    constructor
    · rintro ⟨hentry, hmatches⟩
      exact ⟨hopen, hentry, hmatches⟩
    · intro h
      exact ⟨h.isEntry, h.isMatched⟩
  · have hlong : Path.maxOctets < (route.foldl Path.join root).octets := by
      rw [openRoute_iff] at hopen
      by_contra hshort
      exact hopen ⟨hroute, .inr (Nat.not_lt.1 hshort)⟩
    rcases hlister.refused hlong with ⟨e, hrefused⟩
    simp only [matchedNames, hrefused, List.not_mem_nil, false_iff]
    intro h
    exact hopen h.isOpen

/-- A search from a root that is listed finds the names that match at the ends of the routes that it
takes, each once and in strictly increasing order. -/
theorem exists_hits (hlister : lister.Lawful) {entries : List Entry} (hroot : lister root = .ok entries)
    (pattern : Pattern) :
    ∃ (found : Found) (hits : List (List Name × Name)),
      search lister root pattern = .ok found ∧
      found.paths = hits.map (fun hit => Path.below root (hit.1 ++ [hit.2])) ∧
      hits.Pairwise HitBefore ∧
      ∀ parents name, (parents, name) ∈ hits ↔
        Entered lister root parents ∧
          name ∈ matchedNames lister pattern (parents.foldl Path.join root) := by
  rcases exists_walk_routes hlister hroot with ⟨routes, hwalk, hpairwise, hmem⟩
  let namesAt := fun route : List Name => matchedNames lister pattern (route.foldl Path.join root)
  refine ⟨_, routes.flatMap fun route => (namesAt route).map (Prod.mk route),
    by rw [search, hwalk], ?_, ?_, ?_⟩
  · have hpath (route : List Name) : Path.join (route.foldl Path.join root) =
        fun name => Path.below root (route ++ [name]) := by
      funext name
      rw [← Path.foldl_join root (by simp), List.foldl_append]
      rfl
    simp only [Found.ofVisits, visitsOf, List.flatMap_map, matched_visitAt, List.map_flatMap,
      List.map_map, Function.comp_def, hpath, namesAt]
  · rw [List.pairwise_flatMap]
    constructor
    · intro route _
      rw [List.pairwise_map]
      exact (pairwise_matchedNames hlister _).imp fun h => .right route h
    · refine hpairwise.imp fun {route route'} hbefore => ?_
      intro x hx y hy
      rcases List.mem_map.1 hx with ⟨name, -, rfl⟩
      rcases List.mem_map.1 hy with ⟨name', -, rfl⟩
      exact .left name name' hbefore
  · intro parents name
    simp only [List.mem_flatMap, List.mem_map, Prod.mk.injEq, hmem]
    constructor
    · rintro ⟨route, hroute, name', hname, rfl, rfl⟩
      exact ⟨hroute, hname⟩
    · rintro ⟨hroute, hname⟩
      exact ⟨parents, hroute, name, hname, rfl, rfl⟩

/-- A search finds exactly the hits, each once and in strictly increasing order. -/
theorem search_hits (hlister : lister.Reads fs)
    (hroot : fs.locate .use root = .ok (.present top .directory)) (pattern : Pattern) :
    ∃ (found : Found) (hits : List (List Name × Name)),
      search lister root pattern = .ok found ∧
      found.paths = hits.map (fun hit => Path.below root (hit.1 ++ [hit.2])) ∧
      hits.Pairwise HitBefore ∧
      ∀ parents name, (parents, name) ∈ hits ↔ IsHit fs root top pattern parents name := by
  rcases hlister.listed hroot with ⟨entries, hlisted, -⟩
  obtain ⟨found, hits, hsearch, hpaths, hpairwise, hmem⟩ :=
    exists_hits hlister.readsInPart.lawful hlisted pattern
  refine ⟨found, hits, hsearch, hpaths, hpairwise, ?_⟩
  intro parents name
  rw [hmem, entered_iff_reached hlister hroot]
  constructor
  · rintro ⟨hroute, hname⟩
    exact (mem_matchedNames_of_reached hlister hroot hroute).1 hname
  · intro h
    have hroute : Reached fs root top parents := (openRoute_iff.1 h.isOpen).1
    exact ⟨hroute, (mem_matchedNames_of_reached hlister hroot hroute).2 h⟩

/-- A path comes before another when its hit does. -/
def PathBefore (root path path' : Text) : Prop :=
  ∃ parents name parents' name', path = Path.below root (parents ++ [name]) ∧
    path' = Path.below root (parents' ++ [name']) ∧ HitBefore (parents, name) (parents', name')

/-- No path is before itself. -/
theorem not_pathBefore_self (root path : Text) : ¬ PathBefore root path path := by
  rintro ⟨parents, name, parents', name', hpath, hpath', hbefore⟩
  have hnames : parents ++ [name] = parents' ++ [name'] :=
    Path.below_injective (by simp) (by simp) (hpath.symm.trans hpath')
  rcases List.append_inj' hnames rfl with ⟨rfl, hname⟩
  cases hname
  cases hbefore with
  | left _ _ hlex => exact List.lex_irrefl Name.not_before_self parents hlex
  | right _ hname => exact Name.not_before_self name hname

/-- A search from a root that can be listed returns the paths of the matching entries to which open
routes lead, whatever order directories are read in: each once, and in strictly increasing order. -/
theorem search_exact (hlister : lister.Reads fs) {listed : List Entry}
    (hroot : fs.list root = .ok listed) (pattern : Text) :
    ∃ (top : Location) (found : Found),
      fs.locate .use root = .ok (.present top .directory) ∧
      search lister root (.ofText pattern) = .ok found ∧
      (∀ path, path ∈ found.paths ↔ ∃ parents name,
        path = Path.below root (parents ++ [name]) ∧
          IsHit fs root top (.ofText pattern) parents name) ∧
      found.paths.Pairwise (PathBefore root) ∧ found.paths.Nodup := by
  rcases locate_of_list hroot with ⟨top, htop⟩
  obtain ⟨found, hits, hsearch, hpaths, hpairwise, hmem⟩ :=
    search_hits hlister htop (.ofText pattern)
  have hincreasing : found.paths.Pairwise (PathBefore root) := by
    rw [hpaths, List.pairwise_map]
    exact hpairwise.imp fun {hit hit'} h => ⟨hit.1, hit.2, hit'.1, hit'.2, rfl, rfl, h⟩
  refine ⟨top, found, htop, hsearch, ?_, hincreasing, ?_⟩
  · intro path
    simp only [hpaths, List.mem_map, Prod.exists, hmem]
    constructor
    · rintro ⟨parents, name, hhit, rfl⟩
      exact ⟨parents, name, rfl, hhit⟩
    · rintro ⟨parents, name, rfl, hhit⟩
      exact ⟨parents, name, hhit, rfl⟩
  · refine hincreasing.imp fun {path path'} hbefore => ?_
    rintro rfl
    exact not_pathBefore_self root path hbefore

/-- The search of a tree with a link back to its root, listed in reverse order. -/
theorem search_exact_of_cycle :
    let fs := FileSystem.fresh.put [⟨"loop".toList, by decide⟩, ⟨"work".toList, by decide⟩]
      (.link "..".toList)
    let lister : Lister := fun path => (fs.list path).map List.reverse
    lister.Reads fs ∧ fs.list "/".toList = .ok (entriesAt fs []) ∧
      ∃ (top : Location) (found : Found),
        fs.locate .use "/".toList = .ok (.present top .directory) ∧
        search lister "/".toList (.ofText "*o*".toList) = .ok found ∧
        (∀ path, path ∈ found.paths ↔ ∃ parents name,
          path = Path.below "/".toList (parents ++ [name]) ∧
            IsHit fs "/".toList top (.ofText "*o*".toList) parents name) ∧
        found.paths.Pairwise (PathBefore "/".toList) ∧ found.paths.Nodup := by
  intro fs lister
  have hreads : lister.Reads fs := by
    intro path
    cases hlist : fs.list path with
    | error e => simp [lister, hlist, Except.map]
    | ok entries =>
      exact ⟨entries.reverse, by simp [lister, hlist, Except.map], entries.reverse_perm⟩
  have hroot : fs.list "/".toList = .ok (entriesAt fs []) := by
    refine list_of_locate (FileSystem.locate_eq_ok_iff.2 ⟨by decide, by decide, by decide, ?_⟩)
    exact .stop rfl _
  exact ⟨hreads, hroot, search_exact hreads hroot "*o*".toList⟩

end KernelTools.Wildcard

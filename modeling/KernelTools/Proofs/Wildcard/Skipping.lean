import KernelTools.Proofs.Wildcard.Search

/-!
# Directories that cannot be listed

A search goes on when a directory beneath its root cannot be listed.  To say what that costs, the walk
is described once more, by a relation that goes down from a list of directories and knows nothing of
paths that are too long: so a directory that is refused can be compared with one that is listed and
holds nothing.  Which directories are refused, and why, is left to the lister.

Main results:

- Theorem {lit}`descends_walk`: a walk goes down as the relation says.
- Theorem {lit}`Descends.orEmpty`: where a directory is refused, the way down is the one past an empty
  directory.
- Theorem {lit}`search_orEmpty`: a search finds as much as one in which these directories are empty.
- Theorem {lit}`entered_iff_reaches`: a walk comes to the real directories that are not beneath a refused
  one.
- Theorem {lit}`search_skips`: a directory that is refused costs a search what lies in it, and one
  warning.
-/

namespace KernelTools.Wildcard

open FileSystem (Entry)

variable {fs : FileSystem} {lister : Lister} {root path : Text} {top loc : Location}
  {dirs : List Text} {visits visits' : List Visit} {pattern : Pattern}

/-! ## Going down -/

/-- The paths of the subdirectories that a listing names, in the order of their names. -/
def subdirectories (dir : Text) (entries : List Entry) : List Text :=
  ((sorted entries).filter (·.isDirectory)).map fun entry => Path.join dir entry.name

/-- Going down from some directories, one after the other, gives these visits.  A directory that is
listed is followed by all that lies beneath it, one that is refused by nothing. -/
inductive Descends (lister : Lister) : List Text → List Visit → Prop
  | done : Descends lister [] []
  | skip {dir : Text} {cause : IoError} {dirs : List Text} {visits : List Visit}
    (hrefused : lister dir = .error cause) (h : Descends lister dirs visits) :
    Descends lister (dir :: dirs) (.skipped dir cause :: visits)
  | list {dir : Text} {entries : List Entry} {dirs : List Text} {visits : List Visit}
    (hlisted : lister dir = .ok entries)
    (h : Descends lister (subdirectories dir entries ++ dirs) visits) :
    Descends lister (dir :: dirs) (.listed dir (sorted entries) :: visits)

/-- There is one way down at most. -/
theorem Descends.unique (h : Descends lister dirs visits) (h' : Descends lister dirs visits') :
    visits = visits' := by
  induction h generalizing visits' with
  | done =>
    cases h'
    rfl
  | skip hrefused _ ih =>
    cases h' with
    | skip hrefused' h' =>
      cases hrefused.symm.trans hrefused'
      rw [ih h']
    | list hlisted' => cases hrefused.symm.trans hlisted'
  | list hlisted _ ih =>
    cases h' with
    | skip hrefused' => cases hlisted.symm.trans hrefused'
    | list hlisted' h' =>
      cases hlisted.symm.trans hlisted'
      rw [ih h']

/-- Going down from several directories is going down from each in turn. -/
theorem Descends.append_flatMap {lister : BoundedLister} {paths : List Text}
    (hpaths : ∀ path ∈ paths, ∀ dirs visits, Descends lister.list dirs visits →
      Descends lister.list (path :: dirs) (visitsBeneath lister path ++ visits))
    (h : Descends lister.list dirs visits) :
    Descends lister.list (paths ++ dirs) (paths.flatMap (visitsBeneath lister) ++ visits) := by
  induction paths with
  | nil => exact h
  | cons path paths ih =>
    rw [List.flatMap_cons, List.append_assoc]
    apply hpaths path List.mem_cons_self
    exact ih fun path' hpath' => hpaths path' (List.mem_cons_of_mem path hpath')

/-- The way down from a directory begins with the visits beneath it. -/
theorem descends_cons (lister : BoundedLister) (path : Text) {dirs : List Text}
    {visits : List Visit} (h : Descends lister.list dirs visits) :
    Descends lister.list (path :: dirs) (visitsBeneath lister path ++ visits) := by
  cases hlist : lister.list path with
  | error cause =>
    rw [visitsBeneath_of_error hlist]
    exact .skip hlist h
  | ok entries =>
    have hoctets : path.octets ≤ Path.maxOctets := lister.octets_le hlist
    rw [visitsBeneath_of_ok hlist]
    apply Descends.list hlist
    rw [← List.flatMap_map]
    apply Descends.append_flatMap _ h
    intro below hbelow dirs visits h
    rcases List.mem_map.1 hbelow with ⟨entry, -, rfl⟩
    exact descends_cons lister (Path.join path entry.name) h
-- As for a walk, the paths grow, and those that can be listed are of bounded length.
termination_by Path.maxOctets + 1 - path.octets
decreasing_by
  have := Path.octets_lt_join path entry.name
  omega

/-- A walk goes down from its root. -/
theorem descends_walk (hlister : lister.Lawful) (h : walk lister.bounded path = .ok visits) :
    Descends lister [path] visits := by
  have hdescends := descends_cons lister.bounded path Descends.done
  rwa [visitsBeneath, h, List.append_nil, hlister.bounded_list] at hdescends

/-! ## Empty instead of refused -/

/-- The same lister, but each directory that it refuses is listed as an empty one. -/
def Lister.orEmpty (lister : Lister) : Lister := fun path =>
  match lister path with
  | .ok entries => .ok entries
  | .error _ => .ok []

/-- The same visit, but of an empty directory if it was refused. -/
def Visit.orEmpty : Visit → Visit
  | .listed dir entries => .listed dir entries
  | .skipped dir _ => .listed dir []

/-- A visit that skips a directory finds as much as a visit to an empty one. -/
theorem matched_orEmpty (visit : Visit) : visit.orEmpty.matched pattern = visit.matched pattern := by
  cases visit <;> rfl

/-- Where a directory is refused, the way down is the one past an empty directory. -/
theorem Descends.orEmpty (h : Descends lister dirs visits) :
    Descends lister.orEmpty dirs (visits.map Visit.orEmpty) := by
  induction h with
  | done => exact .done
  | @skip dir cause dirs visits hrefused _ ih =>
    have hlisted : lister.orEmpty dir = .ok [] := by rw [Lister.orEmpty, hrefused]
    have hsorted : sorted [] = [] := List.mergeSort_nil
    have hnone : subdirectories dir [] = [] := by rw [subdirectories, hsorted]; rfl
    rw [List.map_cons, Visit.orEmpty, ← hsorted]
    apply Descends.list hlisted
    rwa [hnone]
  | list hlisted _ ih =>
    apply Descends.list _ ih
    rw [Lister.orEmpty, hlisted]

theorem orEmpty_of_ok {entries : List Entry} (h : lister path = .ok entries) :
    lister.orEmpty path = .ok entries := by
  rw [Lister.orEmpty, h]

theorem orEmpty_of_error {cause : IoError} (h : lister path = .error cause) :
    lister.orEmpty path = .ok [] := by
  rw [Lister.orEmpty, h]

/-- A walk past the directories that are refused finds as much as one in which they are empty. -/
theorem matched_visitsBeneath_orEmpty (hlister : lister.Lawful) (pattern : Pattern) (path : Text) :
    (visitsBeneath lister.orEmpty.bounded path).flatMap (·.matched pattern) =
      (visitsBeneath lister.bounded path).flatMap (·.matched pattern) := by
  cases hlist : lister path with
  | error cause =>
    have hsorted : sorted [] = [] := List.mergeSort_nil
    rw [visitsBeneath_of_error (Lister.bounded_of_error hlist)]
    by_cases hoctets : path.octets ≤ Path.maxOctets
    · rw [visitsBeneath_of_ok (Lister.bounded_of_ok (orEmpty_of_error hlist) hoctets), hsorted]
      rfl
    · obtain ⟨e, hrefused⟩ := lister.orEmpty.bounded.refused (Nat.not_le.1 hoctets)
      rw [visitsBeneath_of_error hrefused]
      rfl
  | ok entries =>
    have hoctets : path.octets ≤ Path.maxOctets := hlister.octets_le path entries hlist
    rw [visitsBeneath_of_ok (Lister.bounded_of_ok hlist hoctets),
      visitsBeneath_of_ok (Lister.bounded_of_ok (orEmpty_of_ok hlist) hoctets), List.flatMap_cons,
      List.flatMap_cons, List.flatMap_assoc, List.flatMap_assoc]
    congr 2
    funext entry
    exact matched_visitsBeneath_orEmpty hlister pattern (Path.join path entry.name)
termination_by Path.maxOctets + 1 - path.octets
decreasing_by
  have := Path.octets_lt_join path entry.name
  omega

/-- A search finds as much as one in which each directory that is refused is listed as an empty one. -/
theorem search_orEmpty (hlister : lister.Lawful) {entries : List Entry}
    (hroot : lister root = .ok entries) {found : Found}
    (h : search lister root pattern = .ok found) :
    ∃ found', search lister.orEmpty root pattern = .ok found' ∧ found'.paths = found.paths := by
  have hoctets : root.octets ≤ Path.maxOctets := hlister.octets_le root entries hroot
  have hwalk := walk_of_ok (Lister.bounded_of_ok hroot hoctets)
  have hwalk' := walk_of_ok (Lister.bounded_of_ok (orEmpty_of_ok hroot) hoctets)
  have hmatched := matched_visitsBeneath_orEmpty hlister pattern root
  rw [visitsBeneath, visitsBeneath, hwalk, hwalk'] at hmatched
  rw [search, hwalk] at h
  cases h
  rw [search, hwalk']
  exact ⟨_, rfl, hmatched⟩

/-! ## Directories that are reached -/

/-- Whether a lister refuses a path. -/
def Lister.refuses (lister : Lister) (path : Text) : Bool :=
  match lister path with
  | .ok _ => false
  | .error _ => true

theorem refuses_eq_false_iff : lister.refuses path = false ↔ ∃ entries, lister path = .ok entries := by
  rw [Lister.refuses]
  cases lister path <;> simp

theorem refuses_eq_true_iff : lister.refuses path = true ↔ ∃ cause, lister path = .error cause := by
  rw [Lister.refuses]
  cases lister path <;> simp

/-- A route from a directory leads through real directories, and all but the last are listed. -/
def Reaches (fs : FileSystem) (lister : Lister) :
    (path : Text) → (loc : Location) → (route : List Name) → Prop
  | _, _, [] => True
  | path, loc, name :: route =>
    lister.refuses path = false ∧ fs.nodeAt (name :: loc) = some .directory ∧
      Reaches fs lister (Path.join path name) (name :: loc) route

/-- Where a path leads to a directory, joining a name leads into the subdirectory, provided that it is
listed there. -/
theorem locate_join_of_listed {name : Name} (hlister : lister.ReadsInPart fs)
    (hpath : fs.locate .use path = .ok (.present loc .directory))
    (hnode : fs.nodeAt (name :: loc) = some .directory)
    (hlisted : lister.refuses (Path.join path name) = false) :
    fs.locate .use (Path.join path name) = .ok (.present (name :: loc) .directory) := by
  rcases refuses_eq_false_iff.1 hlisted with ⟨entries, hentries⟩
  exact FileSystem.locate_join hpath hnode (hlister.lawful.octets_le _ _ hentries)

/-- A walk comes to the directories that are reached. -/
theorem entered_iff_reaches (hlister : lister.ReadsInPart fs)
    (hpath : lister.refuses path = false → fs.locate .use path = .ok (.present loc .directory))
    (route : List Name) : Entered lister path route ↔ Reaches fs lister path loc route := by
  induction route generalizing path loc with
  | nil => simp [Entered, Reaches]
  | cons name route ih =>
    cases hlist : lister path with
    | error cause => simp [Entered, Reaches, Lister.NamesDirectory, Lister.refuses, hlist]
    | ok entries =>
      have hlisted : lister.refuses path = false := refuses_eq_false_iff.2 ⟨entries, hlist⟩
      have hnamed : lister.NamesDirectory path name ↔
          fs.nodeAt (name :: loc) = some .directory := by
        have hentry := hlister.mem_iff hlist (hpath hlisted) ⟨name, true⟩
        simp [Lister.NamesDirectory, hlist, hentry, mem_entriesAt]
      rw [Entered, Reaches, hnamed, and_iff_right hlisted]
      apply and_congr_right
      intro hnode
      exact ih fun hjoin => locate_join_of_listed hlister (hpath hlisted) hnode hjoin

/-- A directory that is reached and listed is the one at the end of the route. -/
theorem Reaches.locate {route : List Name} (h : Reaches fs lister path loc route)
    (hlister : lister.ReadsInPart fs)
    (hpath : lister.refuses path = false → fs.locate .use path = .ok (.present loc .directory))
    (hlisted : lister.refuses (route.foldl Path.join path) = false) :
    fs.locate .use (route.foldl Path.join path) =
      .ok (.present (route.reverse ++ loc) .directory) := by
  induction route generalizing path loc with
  | nil => exact hpath hlisted
  | cons name route ih =>
    rcases h with ⟨hfirst, hnode, h⟩
    have hjoin := ih h (fun hjoin => locate_join_of_listed hlister (hpath hfirst) hnode hjoin) hlisted
    rw [List.foldl_cons, hjoin]
    simp

/-- Of the directories of a file system that are reached, those with a path that is too long are
refused, and no others. -/
theorem refuses_iff_of_reads {route : List Name} (hlister : lister.Reads fs)
    (hpath : fs.locate .use path = .ok (.present loc .directory))
    (h : Reaches fs lister path loc route) :
    lister.refuses (route.foldl Path.join path) = true ↔
      Path.maxOctets < (route.foldl Path.join path).octets := by
  constructor
  · intro hrefused
    by_contra hshort
    have hreached : Reached fs path loc route :=
      (entered_iff_reached hlister hpath route).1
        ((entered_iff_reaches hlister.readsInPart (fun _ => hpath) route).2 h)
    have hopen : OpenRoute fs path loc route :=
      openRoute_iff.2 ⟨hreached, .inr (Nat.not_lt.1 hshort)⟩
    rcases hlister.listed (hopen.locate hpath) with ⟨entries, hlisted, -⟩
    rw [refuses_eq_false_iff.2 ⟨entries, hlisted⟩] at hrefused
    contradiction
  · intro hlong
    exact refuses_eq_true_iff.2 (hlister.refused hlong)

/-! ## Warnings -/

/-- The warning that a directory is skipped. -/
def skipRecord (dir : Text) : Log.Record :=
  ⟨.warn, logTarget, "skipping ".toList ++ dir ++ ": ".toList ++
    ("failed to read directory `".toList ++ dir ++ "`".toList)⟩

/-- The warnings about the visits of some routes are those about the directories that are refused. -/
theorem filter_warn_records (lister : Lister) (root : Text) (routes : List (List Name)) :
    ((visitsOf lister root routes).map Visit.record).filter (·.level = .warn) =
      (routes.filter fun route => lister.refuses (route.foldl Path.join root)).map
        fun route => skipRecord (route.foldl Path.join root) := by
  induction routes with
  | nil => rfl
  | cons route routes ih =>
    rw [visitsOf, List.map_cons, ← visitsOf, List.map_cons]
    cases hlist : lister (route.foldl Path.join root) with
    | ok entries =>
      have hlisted : lister.refuses (route.foldl Path.join root) = false :=
        refuses_eq_false_iff.2 ⟨entries, hlist⟩
      have hvisit : visitAt lister (route.foldl Path.join root) =
          .listed (route.foldl Path.join root) (sorted entries) := by rw [visitAt, hlist]
      rw [hvisit, List.filter_cons_of_neg (by simp [Visit.record]),
        List.filter_cons_of_neg (by simp [hlisted]), ih]
    | error cause =>
      have hrefused : lister.refuses (route.foldl Path.join root) = true :=
        refuses_eq_true_iff.2 ⟨cause, hlist⟩
      have hvisit : visitAt lister (route.foldl Path.join root) =
          .skipped (route.foldl Path.join root) cause := by rw [visitAt, hlist]
      have hrecord : (visitAt lister (route.foldl Path.join root)).record =
          skipRecord (route.foldl Path.join root) := by rw [hvisit]; rfl
      have hwarn : decide ((skipRecord (route.foldl Path.join root)).level = .warn) = true := rfl
      rw [hrecord, List.filter_cons, if_pos hwarn, List.filter_cons, if_pos hrefused, List.map_cons,
        ih]

/-! ## Searches -/

/-- A search fails when its root is refused, and with the cause of that. -/
theorem search_eq_error_iff (hlister : lister.Lawful) {err : SearchError} :
    search lister root pattern = .error err ↔
      ∃ cause, lister root = .error cause ∧ err = .unlistable root cause := by
  cases hlist : lister root with
  | error cause =>
    rw [search, walk_of_error (Lister.bounded_of_error hlist)]
    simp [eq_comm]
  | ok entries =>
    have hoctets : root.octets ≤ Path.maxOctets := hlister.octets_le root entries hlist
    rw [search, walk_of_ok (Lister.bounded_of_ok hlist hoctets)]
    simp

/-- What a search found in spite of the directories that were refused.  It found what it finds when
they are empty, having gone down the same way; these are the matching entries of the directories that
it reached and that were listed, refused ones among them; and it warned once of each directory that it
reached and that was refused, in the order of the visits. -/
structure SkipsRefused (fs : FileSystem) (lister : Lister) (root : Text) (top : Location)
    (pattern : Pattern) (found : Found) : Prop where
  paths_orEmpty : ∃ found', search lister.orEmpty root pattern = .ok found' ∧
    found'.paths = found.paths
  descends : ∃ visits, Descends lister [root] visits ∧
    Descends lister.orEmpty [root] (visits.map Visit.orEmpty) ∧
    found.paths = (visits.map Visit.orEmpty).flatMap (·.matched pattern) ∧
    found.records = visits.map Visit.record
  mem_paths_iff : ∀ path, path ∈ found.paths ↔ ∃ parents name,
    path = Path.below root (parents ++ [name]) ∧ Reaches fs lister root top parents ∧
      lister.refuses (parents.foldl Path.join root) = false ∧
      fs.nodeAt (name :: (parents.reverse ++ top)) ≠ none ∧ pattern.matches name.text = true
  warnings : ∃ routes : List (List Name), routes.Pairwise (List.Lex Name.Before) ∧
    (∀ route, route ∈ routes ↔ Reaches fs lister root top route ∧
      lister.refuses (route.foldl Path.join root) = true) ∧
    found.records.filter (·.level = .warn) =
      routes.map fun route => skipRecord (route.foldl Path.join root)

/-- A search from a root that is listed skips the directories that are refused. -/
theorem exists_skipsRefused (hlister : lister.ReadsInPart fs) {entries : List Entry}
    (hroot : lister root = .ok entries)
    (htop : fs.locate .use root = .ok (.present top .directory)) (pattern : Pattern) :
    ∃ found, search lister root pattern = .ok found ∧
      SkipsRefused fs lister root top pattern found := by
  have hreaches (route : List Name) : Entered lister root route ↔ Reaches fs lister root top route :=
    entered_iff_reaches hlister (fun _ => htop) route
  obtain ⟨routes, hwalk, hpairwise, hmem⟩ := exists_walk_routes hlister.lawful hroot
  have hsearch : search lister root pattern =
      .ok (.ofVisits pattern (visitsOf lister root routes)) := by rw [search, hwalk]
  refine ⟨_, hsearch, search_orEmpty hlister.lawful hroot hsearch, ?_, ?_, ?_⟩
  · have hdescends := descends_walk hlister.lawful hwalk
    refine ⟨_, hdescends, hdescends.orEmpty, ?_, rfl⟩
    simp only [Found.ofVisits, List.flatMap_map, matched_orEmpty]
  · obtain ⟨found, hits, hfound, hpaths, -, hhits⟩ := exists_hits hlister.lawful hroot pattern
    obtain rfl : found = _ := Except.ok.inj (hfound.symm.trans hsearch)
    intro path
    simp only [hpaths, List.mem_map, Prod.exists, hhits, hreaches]
    constructor
    · rintro ⟨parents, name, ⟨hparents, hname⟩, rfl⟩
      have hlisted : lister.refuses (parents.foldl Path.join root) = false := by
        by_contra hrefused
        rcases refuses_eq_true_iff.1 (Bool.not_eq_false _ ▸ hrefused) with ⟨cause, hcause⟩
        simp [matchedNames, hcause] at hname
      rcases refuses_eq_false_iff.1 hlisted with ⟨listed, hentries⟩
      have hpath := hparents.locate hlister (fun _ => htop) hlisted
      rw [mem_matchedNames hlister hentries hpath] at hname
      exact ⟨parents, name, rfl, hparents, hlisted, hname⟩
    · rintro ⟨parents, name, rfl, hparents, hlisted, hname⟩
      rcases refuses_eq_false_iff.1 hlisted with ⟨listed, hentries⟩
      have hpath := hparents.locate hlister (fun _ => htop) hlisted
      exact ⟨parents, name, ⟨hparents, (mem_matchedNames hlister hentries hpath).2 hname⟩, rfl⟩
  · refine ⟨routes.filter fun route => lister.refuses (route.foldl Path.join root),
      hpairwise.filter _, ?_, filter_warn_records lister root routes⟩
    intro route
    rw [List.mem_filter, hmem, hreaches]

/-- Whatever directories of a file system a lister refuses, a search fails only when its root is one of
them, and then the error names the root and the cause.  Otherwise a refused directory costs what lies
in it: it is passed by like an empty one, and warned of once.  A lister that refuses nothing of its own
accord refuses those of the directories reached that have a path that is too long. -/
theorem search_skips (hlister : lister.ReadsInPart fs) (root : Text) (pattern : Pattern) :
    (∀ err, search lister root pattern = .error err ↔
      ∃ cause, lister root = .error cause ∧ err = .unlistable root cause) ∧
    ∀ entries, lister root = .ok entries → ∃ top found,
      fs.locate .use root = .ok (.present top .directory) ∧
      search lister root pattern = .ok found ∧ SkipsRefused fs lister root top pattern found ∧
      (lister.Reads fs → ∀ route, Reaches fs lister root top route →
        (lister.refuses (route.foldl Path.join root) = true ↔
          Path.maxOctets < (route.foldl Path.join root).octets)) := by
  constructor
  · intro err
    exact search_eq_error_iff hlister.lawful
  · intro entries hroot
    rcases hlister.listed hroot with ⟨top, htop, -⟩
    obtain ⟨found, hsearch, hskips⟩ := exists_skipsRefused hlister hroot htop pattern
    refine ⟨top, found, htop, hsearch, hskips, ?_⟩
    intro hreads route hreached
    exact refuses_iff_of_reads hreads htop hreached

/-- A search from the top of a fresh file system finds its working directory although that is refused,
and warns of it; a search of the working directory itself fails. -/
theorem search_skips_of_locked :
    let work : Text := "/work".toList
    let lister : Lister := fun path =>
      if path = work then .error .invalidFilename else FileSystem.fresh.list path
    lister.ReadsInPart FileSystem.fresh ∧
      search lister work (.ofText "*".toList) = .error (.unlistable work .invalidFilename) ∧
      ∃ found, search lister "/".toList (.ofText "w*".toList) = .ok found ∧
        work ∈ found.paths ∧ skipRecord work ∈ found.records := by
  intro work lister
  have hlister : lister.ReadsInPart FileSystem.fresh := by
    intro path entries hlisted
    by_cases hpath : path = work
    · simp [lister, hpath] at hlisted
    · simp only [lister, hpath, if_false] at hlisted
      exact ⟨entries, hlisted, .refl entries⟩
  have hwork : lister work = .error .invalidFilename := by simp [lister]
  have hrefused : lister.refuses work = true := refuses_eq_true_iff.2 ⟨_, hwork⟩
  have htop : FileSystem.fresh.locate .use "/".toList = .ok (.present [] .directory) :=
    FileSystem.locate_eq_ok_iff.2 ⟨by decide, by decide, by decide, .stop rfl _⟩
  have hroot : lister "/".toList = .ok (entriesAt FileSystem.fresh []) := by
    simp only [lister, show "/".toList ≠ work by decide, if_false]
    exact list_of_locate htop
  have hlisted : lister.refuses "/".toList = false := refuses_eq_false_iff.2 ⟨_, hroot⟩
  refine ⟨hlister, ?_, ?_⟩
  · exact ((search_skips hlister work (.ofText "*".toList)).1 _).2 ⟨_, hwork, rfl⟩
  · obtain ⟨top, found, hlocate, hsearch, hskips, -⟩ :=
      (search_skips hlister "/".toList (.ofText "w*".toList)).2 _ hroot
    obtain rfl : top = [] := by
      cases htop.symm.trans hlocate
      rfl
    refine ⟨found, hsearch, ?_, ?_⟩
    · refine (hskips.mem_paths_iff work).2 ⟨[], ⟨"work".toList, by decide⟩, ?_, ?_⟩
      · decide
      · exact ⟨trivial, hlisted, by decide, by decide +kernel⟩
    · obtain ⟨routes, -, hmem, hwarnings⟩ := hskips.warnings
      have hroute : [⟨"work".toList, by decide⟩] ∈ routes :=
        (hmem _).2 ⟨⟨hlisted, by decide, trivial⟩, hrefused⟩
      have hwarned : skipRecord work ∈ found.records.filter (·.level = .warn) := by
        rw [hwarnings]
        exact List.mem_map_of_mem hroute
      exact (List.mem_filter.1 hwarned).1

end KernelTools.Wildcard

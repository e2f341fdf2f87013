import KernelTools.FileSystem.Editing
import KernelTools.Proofs.Path.FileName
import KernelTools.Proofs.Search.Fronting
import KernelTools.Proofs.Wildcard.Search
import KernelTools.Report

/-!
# Searching with a name to put first

A run that searches prints what it finds, and with a name to put first it prints the first path of
that name before all others.  It warns of a name that no path has; a search also warns of directories
that it skips, whatever is put first.

Main results:

- Theorem {lit}`exists_fileName_iff`: a path of a name is found just when the pattern matches the name
  and an entry of that name lies where the search comes to.
- Theorem {lit}`glob_first_exact`: what a run with a name to put first prints and logs.
- Theorem {lit}`glob_first_warns_of_skipped`: a run that finds the name may still warn.
-/

namespace KernelTools

open CommandLine (Options)
open Search (DividesAt firstNamedToFront)
open Wildcard (Found Lister OpenRoute Pattern Reached Visit entriesAt)

variable {fs : FileSystem} {options : Options} {pattern root name : Text}
  {top : Location} {found : Found}

/-! ## What is found -/

/-- A path of a name is found just when the pattern matches the name and an entry of that name lies
where the search comes to. -/
theorem exists_fileName_iff (htop : fs.locate .use root = .ok (.present top .directory))
    (hfound : Wildcard.search fs.list root (.ofText pattern) = .ok found) :
    (∃ path ∈ found.paths, Path.fileName? path = some name) ↔
      (Pattern.ofText pattern).matches name = true ∧
        ∃ parents entry, entry.text = name ∧ OpenRoute fs root top parents ∧
          fs.nodeAt (entry :: (parents.reverse ++ top)) ≠ none := by
  obtain ⟨found', hits, hsearch, hpaths, -, hmem⟩ :=
    Wildcard.search_hits (Wildcard.reads_list fs) htop (.ofText pattern)
  obtain rfl : found' = found := Except.ok.inj (hsearch.symm.trans hfound)
  rw [hpaths]
  constructor
  · rintro ⟨path, hpath, hname⟩
    obtain ⟨⟨parents, entry⟩, hhit, rfl⟩ := List.mem_map.1 hpath
    rw [Path.fileName?_below, Option.some.injEq] at hname
    subst hname
    have hisHit := (hmem parents entry).1 hhit
    exact ⟨hisHit.isMatched, parents, entry, rfl, hisHit.isOpen, hisHit.isEntry⟩
  · rintro ⟨hmatches, parents, entry, rfl, hopen, hentry⟩
    have hhit := (hmem parents entry).2 ⟨hopen, hentry, hmatches⟩
    exact ⟨_, List.mem_map_of_mem hhit, Path.fileName?_below root parents entry⟩

/-- A search warns of the directories that it comes to and cannot list, and of nothing else. -/
theorem warn_mem_records_iff (htop : fs.locate .use root = .ok (.present top .directory))
    (hfound : Wildcard.search fs.list root (.ofText pattern) = .ok found) {record : Log.Record}
    (hlevel : record.level = .warn) :
    record ∈ found.records ↔
      ∃ route cause, Reached fs root top route ∧
        fs.list (route.foldl Path.join root) = .error cause ∧
        record = (Visit.skipped (route.foldl Path.join root) cause).record := by
  -- There is one record for each route that the walk comes to.
  obtain ⟨routes, hwalk, -, hmem⟩ := Wildcard.walksRoutes (Wildcard.reads_list fs) htop
  rw [Wildcard.search, hwalk] at hfound
  cases hfound
  simp only [Found.ofVisits, Wildcard.visitsOf, List.map_map, List.mem_map, Function.comp_apply,
    hmem, Wildcard.visitAt]
  constructor
  · rintro ⟨route, hroute, rfl⟩
    cases hlist : fs.list (route.foldl Path.join root) with
    | error cause => exact ⟨route, cause, hroute, hlist, rfl⟩
    | ok entries =>
      simp only [hlist] at hlevel
      contradiction
  · rintro ⟨route, cause, hroute, hlist, rfl⟩
    exact ⟨route, hroute, by simp only [hlist]⟩

/-! ## A tree with two files of one name -/

/-- Two files and a directory that holds a file of the same name as one of them. -/
def twins : FileSystem :=
  let a : Name := ⟨"a".toList, by decide⟩
  let b : Name := ⟨"b".toList, by decide⟩
  let d : Name := ⟨"d".toList, by decide⟩
  let here := FileSystem.fresh.workingDirectory
  (((FileSystem.fresh.put (a :: here) (.file [])).put (b :: here) (.file [])).put (d :: here)
    .directory).put (b :: d :: here) (.file [])

theorem locate_twins :
    twins.locate .use ".".toList = .ok (.present twins.workingDirectory .directory) := by
  have hdir : twins.nodeAt twins.workingDirectory = some .directory := by decide +kernel
  exact FileSystem.locate_eq_ok_iff.2 ⟨by decide, by decide, by decide, .here (.stop hdir _)⟩

/-- A search for names of one character finds all that lies in this tree. -/
theorem search_twins :
    ∃ found, Wildcard.search twins.list ".".toList (.ofText "?".toList) = .ok found ∧
      found.paths = ["./a", "./b", "./d", "./d/b"].map String.toList := by
  let a : Name := ⟨"a".toList, by decide⟩
  let b : Name := ⟨"b".toList, by decide⟩
  let d : Name := ⟨"d".toList, by decide⟩
  let here := twins.workingDirectory
  have hsub : twins.nodeAt (d :: here) = some .directory := by decide +kernel
  have hlist := Wildcard.list_of_locate locate_twins
  have hlist' :=
    Wildcard.list_of_locate (FileSystem.locate_join locate_twins hsub (by decide))
  -- The directories keep their entries in the order of the names.
  have hentries : entriesAt twins here = [⟨a, false⟩, ⟨b, false⟩, ⟨d, true⟩] := by decide +kernel
  have hentries' : entriesAt twins (d :: here) = [⟨b, false⟩] := by decide +kernel
  have hsorted : Wildcard.sorted (entriesAt twins here) = entriesAt twins here :=
    List.mergeSort_of_pairwise (by rw [hentries]; decide +kernel)
  have hsorted' : Wildcard.sorted (entriesAt twins (d :: here)) = entriesAt twins (d :: here) :=
    List.mergeSort_of_pairwise (by rw [hentries']; decide +kernel)
  have hbeneath := Wildcard.visitsBeneath_of_ok (Lister.bounded_of_ok hlist' (by decide))
  rw [hsorted', hentries'] at hbeneath
  refine ⟨_, by rw [Wildcard.search, Wildcard.walk_of_ok (Lister.bounded_of_ok hlist (by decide)),
    hsorted, hentries], ?_⟩
  simp only [Found.ofVisits, List.flatMap_cons, List.flatMap_nil, if_true, hbeneath,
    Bool.false_eq_true, if_false, List.nil_append, List.append_nil, List.filter_cons,
    List.filter_nil]
  decide +kernel

/-! ## What is printed and logged -/

/-- The record of how many paths a search found. -/
def countRecord (pattern : Text) (paths : List Text) : Log.Record :=
  ⟨.debug, globTarget,
    Text.decimal paths.length ++ " matches for `".toList ++ pattern ++ "`".toList⟩

/-- The warning that no path has a name. -/
def unmatchedRecord (name : Text) : Log.Record :=
  ⟨.warn, globTarget, "no match named `".toList ++ name ++ "`".toList⟩

/-- What a run prints and logs that has found some paths and is to put those of a name first. -/
structure Fronts (fs : FileSystem) (options : Options) (pattern name : Text) (found : Found) :
    Prop where
  exitCode_eq : (run fs options).exitCode = 0
  moved : ∀ before path after, DividesAt name found.paths before path after →
    (path :: (before ++ after)).Perm found.paths ∧
      (run fs options).outputText = Text.ofLines (path :: (before ++ after)) ∧
      (run fs options).records = found.records ++ [countRecord pattern found.paths]
  kept : (∀ path ∈ found.paths, Path.fileName? path ≠ some name) →
    (run fs options).outputText = Text.ofLines found.paths ∧
      (run fs options).records =
        found.records ++ [unmatchedRecord name, countRecord pattern found.paths]

theorem run_of_glob {first : Option Text} (hcommand : options.command = .glob pattern root first) :
    run fs options = runGlob fs pattern root first := by
  rw [run, hcommand]

theorem fronts_of_search (hcommand : options.command = .glob pattern root (some name))
    (hfound : Wildcard.search fs.list root (.ofText pattern) = .ok found) :
    Fronts fs options pattern name found := by
  have hrun : run fs options = _ := run_of_glob hcommand
  simp only [runGlob, hfound] at hrun
  refine ⟨?_, ?_, ?_⟩
  · rw [hrun]
    rfl
  · intro before path after hdivides
    have hperm : (path :: (before ++ after)).Perm found.paths := by
      rw [hdivides.paths_eq]
      exact List.perm_middle.symm
    simp only [arrange, Search.firstNamedToFront_of_first hdivides] at hrun
    rw [hrun, hperm.length_eq]
    exact ⟨hperm, rfl, by simp [countRecord]⟩
  · intro hnone
    simp only [arrange, Search.firstNamedToFront_eq_none_iff.2 hnone] at hrun
    rw [hrun]
    exact ⟨rfl, by simp [countRecord, unmatchedRecord]⟩

/-- A root that cannot be listed ends the run. -/
theorem run_of_unlistable {first : Option Text} {e : IoError}
    (hcommand : options.command = .glob pattern root first) (hlist : fs.list root = .error e) :
    run fs options = ⟨[], [], some (.glob pattern root (.unlistable root e)), fs⟩ := by
  have hwalk : Wildcard.walk (Lister.bounded fs.list) root = .error e :=
    Wildcard.walk_of_error (Lister.bounded_of_error hlist)
  simp only [run_of_glob hcommand, runGlob, Wildcard.search, hwalk]

/-- What was arranged stays as it is. -/
theorem arrange_arrange (name : Text) (paths : List Text) :
    arrange (some name) (arrange (some name) paths).1 = arrange (some name) paths := by
  cases hfront : firstNamedToFront name paths with
  | none => simp only [arrange, hfront]
  | some arranged =>
    simp only [arrange, hfront, Search.firstNamedToFront_firstNamedToFront hfront]

/-- A run with a name to put first prints the first path of that name and then the others as they
were found; if there is none it prints all as they were found, and warns of it once.  All other
warnings are about directories that the search skipped.  There is such a path just when the pattern
matches the name and an entry of that name lies where the search comes to.  A root that cannot be
listed makes the run fail without printing anything. -/
theorem glob_first_exact (fs : FileSystem)
    (hcommand : options.command = .glob pattern root (some name)) :
    (∀ listed, fs.list root = .ok listed →
      ∃ top found, fs.locate .use root = .ok (.present top .directory) ∧
        Wildcard.search fs.list root (.ofText pattern) = .ok found ∧
        Fronts fs options pattern name found ∧
        (∀ record, record.level = .warn → (record ∈ found.records ↔
          ∃ route cause, Reached fs root top route ∧
            fs.list (route.foldl Path.join root) = .error cause ∧
            record = (Visit.skipped (route.foldl Path.join root) cause).record)) ∧
        ((∃ before path after, DividesAt name found.paths before path after) ↔
          (Pattern.ofText pattern).matches name = true ∧
            ∃ parents entry, entry.text = name ∧ OpenRoute fs root top parents ∧
              fs.nodeAt (entry :: (parents.reverse ++ top)) ≠ none)) ∧
      (∀ e, fs.list root = .error e →
        (run fs options).outputText = [] ∧ (run fs options).exitCode = 1) ∧
      ∀ paths, arrange (some name) (arrange (some name) paths).1 = arrange (some name) paths := by
  refine ⟨?_, ?_, arrange_arrange name⟩
  · intro listed hlist
    obtain ⟨top, htop⟩ := Wildcard.locate_of_list hlist
    obtain ⟨found, _, hfound, -⟩ := Wildcard.search_hits (Wildcard.reads_list fs) htop (.ofText pattern)
    refine ⟨top, found, htop, hfound, fronts_of_search hcommand hfound,
      fun _ hlevel => warn_mem_records_iff htop hfound hlevel, ?_⟩
    rw [Search.exists_dividesAt_iff]
    exact exists_fileName_iff htop hfound
  · intro e hlist
    rw [run_of_unlistable hcommand hlist]
    exact ⟨rfl, rfl⟩

/-- Of two files of one name the one found first is put first, and the others follow as they were
found; a name that nothing found has is warned of. -/
theorem glob_first_exact_of_names :
    let pattern : Text := "?".toList
    let options (first : Text) : Options := ⟨0, false, none, .glob pattern ".".toList (some first)⟩
    ∃ found, Wildcard.search twins.list ".".toList (.ofText pattern) = .ok found ∧
      found.paths = ["./a", "./b", "./d", "./d/b"].map String.toList ∧
      (run twins (options "b".toList)).outputText =
        Text.ofLines (["./b", "./a", "./d", "./d/b"].map String.toList) ∧
      (run twins (options "b".toList)).records =
        found.records ++ [countRecord pattern found.paths] ∧
      (run twins (options "c".toList)).outputText = Text.ofLines found.paths ∧
      (run twins (options "c".toList)).records =
        found.records ++ [unmatchedRecord "c".toList, countRecord pattern found.paths] := by
  intro pattern options
  obtain ⟨found, hfound, hpaths⟩ := search_twins
  have hlist := Wildcard.list_of_locate locate_twins
  have hfronts (first : Text) : Fronts twins (options first) pattern first found := by
    have hcommand : (options first).command = .glob pattern ".".toList (some first) := rfl
    obtain ⟨_, found', -, hfound', hfronts, -⟩ := (glob_first_exact twins hcommand).1 _ hlist
    cases hfound.symm.trans hfound'
    exact hfronts
  have hdivides : DividesAt "b".toList found.paths ["./a".toList] "./b".toList
      (["./d", "./d/b"].map String.toList) := by
    exact ⟨hpaths, by decide, by decide⟩
  have hnone : ∀ path ∈ found.paths, Path.fileName? path ≠ some "c".toList := by
    rw [hpaths]
    decide
  obtain ⟨-, houtput, hrecords⟩ := (hfronts "b".toList).moved _ _ _ hdivides
  obtain ⟨houtput', hrecords'⟩ := (hfronts "c".toList).kept hnone
  exact ⟨found, hfound, hpaths, houtput, hrecords, houtput', hrecords'⟩

/-! ## A directory that is skipped -/

/-- The path of a directory can be so long that the paths of its subdirectories cannot be listed.  One
of them is found and put first, and a warning says that it is skipped. -/
theorem exists_warn_of_longest {name : Name} (hcommand : options.command =
      .glob pattern root (some name.text))
    (htop : fs.locate .use root = .ok (.present top .directory))
    (hname : fs.nodeAt (name :: top) = some .directory) (hlong : Path.maxOctets ≤ root.octets)
    (hmatches : (Pattern.ofText pattern).matches name.text = true) :
    ∃ found, Wildcard.search fs.list root (.ofText pattern) = .ok found ∧
      (∃ path ∈ found.paths, Path.fileName? path = some name.text) ∧
      ∃ record ∈ (run fs options).records, record.level = .warn := by
  obtain ⟨found, _, hfound, -⟩ := Wildcard.search_hits (Wildcard.reads_list fs) htop (.ofText pattern)
  have hnamed : ∃ path ∈ found.paths, Path.fileName? path = some name.text := by
    refine (exists_fileName_iff htop hfound).2 ⟨hmatches, [], name, rfl, Wildcard.openRoute_nil, ?_⟩
    exact ne_of_eq_of_ne hname (Option.some_ne_none _)
  obtain ⟨before, path, after, hdivides⟩ := Search.exists_dividesAt_iff.2 hnamed
  obtain ⟨cause, hlist⟩ :=
    (Wildcard.reads_list fs).refused (Nat.lt_of_le_of_lt hlong (Path.octets_lt_join root name))
  have hwarn : (Visit.skipped (Path.join root name) cause).record ∈ found.records :=
    (warn_mem_records_iff htop hfound rfl).2 ⟨[name], cause, ⟨hname, .inl rfl⟩, hlist, rfl⟩
  refine ⟨found, hfound, hnamed, (Visit.skipped (Path.join root name) cause).record, ?_, rfl⟩
  rw [((fronts_of_search hcommand hfound).moved before path after hdivides).2.2]
  exact List.mem_append_left _ hwarn

/-- The working directory, with slashes behind it. -/
def slashedHere (n : Nat) : Text :=
  ['.'] ++ List.replicate n '/'

theorem octets_slashedHere (n : Nat) : (slashedHere n).octets = n + 1 := by
  induction n with
  | zero => decide
  | succ n ih =>
    have hslash : Text.octets ['/'] = 1 := by decide
    rw [slashedHere, List.replicate_succ', ← List.append_assoc, Text.octets_append, hslash]
    exact congrArg (· + 1) ih

/-- The working directory can be listed under a path that is not too long. -/
theorem locate_slashedHere {n : Nat} (hdir : fs.nodeAt fs.workingDirectory = some .directory)
    (hoctets : n + 1 ≤ Path.maxOctets) :
    fs.locate .use (slashedHere n) = .ok (.present fs.workingDirectory .directory) := by
  have hsteps : Path.steps (slashedHere n) = [.here] := Path.steps_append_slashes ['.'] n
  have hnul : '\x00' ∉ slashedHere n := by simp [slashedHere]
  have hne : slashedHere n ≠ [] := List.cons_ne_nil _ _
  refine FileSystem.locate_eq_ok_iff.2 ⟨hnul, hne, octets_slashedHere n ▸ hoctets, ?_⟩
  rw [hsteps]
  exact .here (.stop hdir _)

/-- Not every run that finds a path of the name is without warnings: a directory of that name is
found beneath a root with so many slashes behind it that the directory is skipped. -/
theorem glob_first_warns_of_skipped :
    let name : Name := ⟨"d".toList, by decide⟩
    let fs := FileSystem.fresh.put (name :: FileSystem.fresh.workingDirectory) .directory
    let root := slashedHere 4094
    ∃ options found,
      CommandLine.read ["glob".toList, name.text, "--root".toList, root, "--first".toList,
        name.text] = .ok options ∧
      Wildcard.search fs.list root (.ofText name.text) = .ok found ∧
      (∃ path ∈ found.paths, Path.fileName? path = some name.text) ∧
      ∃ record ∈ (run fs options).records, record.level = .warn := by
  intro name fs root
  have hdir : fs.nodeAt fs.workingDirectory = some .directory := by decide +kernel
  have hname : fs.nodeAt (name :: fs.workingDirectory) = some .directory := by
    rw [FileSystem.workingDirectory_put, FileSystem.nodeAt_put, if_pos rfl]
  have htop : fs.locate .use root = .ok (.present fs.workingDirectory .directory) :=
    locate_slashedHere hdir (Nat.le_refl 4095)
  have hlong : Path.maxOctets ≤ root.octets := Nat.le_of_eq (octets_slashedHere 4094).symm
  let options : Options := ⟨0, false, none, .glob name.text root (some name.text)⟩
  have hcommand : options.command = .glob name.text root (some name.text) := rfl
  obtain ⟨found, hfound⟩ := exists_warn_of_longest hcommand htop hname hlong (by decide +kernel)
  exact ⟨options, found, rfl, hfound⟩

end KernelTools

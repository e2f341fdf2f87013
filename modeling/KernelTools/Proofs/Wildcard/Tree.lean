import KernelTools.Proofs.FileSystem.Tree
import KernelTools.Proofs.Wildcard.Walk
import Mathlib.Data.List.Nodup

/-!
# A search sees the tree alone

A search looks at a file system only by listing directories, and it sorts what it lists.  So it
neither depends on the contents of files nor on the order in which a file system keeps its entries.

Main results:

- Theorem {lit}`walk_congr`: listers whose answers agree once they are sorted give the same walk.
- Theorem {lit}`search_eq_of_sameTree`: in file systems with the same tree a search finds and logs
  the same, or fails alike.
-/

namespace KernelTools.Wildcard

open FileSystem (Entry SameTree)

variable {fs fs' : FileSystem}

/-! ## Sorted answers -/

/-- Entries of different names are sorted into one order, in whatever order they come. -/
theorem sorted_eq_of_perm {entries entries' : List Entry} (h : entries.Perm entries')
    (hnodup : (entries.map Entry.name).Nodup) : sorted entries = sorted entries' := by
  have hnodup' : (entries'.map Entry.name).Nodup := (h.map Entry.name).nodup_iff.1 hnodup
  have hperm : (sorted entries).Perm (sorted entries') :=
    (List.mergeSort_perm entries _).trans (h.trans (List.mergeSort_perm entries' _).symm)
  refine hperm.eq_of_pairwise ?_ (pairwise_sorted hnodup) (pairwise_sorted hnodup')
  intro a b _ _ hab hba
  exact absurd (List.lt_trans hab hba) (Name.not_before_self a.name)

/-- A directory has the same entries in both file systems. -/
theorem perm_entriesAt_of_sameTree (h : SameTree fs fs') (loc : Location) :
    (entriesAt fs loc).Perm (entriesAt fs' loc) := by
  have hkept {fs fs' : FileSystem} (h : SameTree fs fs') (entry : Entry)
      (hentry : entry ∈ entriesAt fs loc) : entry ∈ entriesAt fs' loc := by
    rcases mem_entriesAt.1 hentry with ⟨node, hnode, hdirectory⟩
    rcases h.exists_nodeAt hnode with ⟨node', hnode', hbare⟩
    refine mem_entriesAt.2 ⟨node', hnode', ?_⟩
    rw [hdirectory, decide_eq_decide, ← Node.bare_eq_directory_iff, ← hbare,
      Node.bare_eq_directory_iff]
  have hnodup (fs : FileSystem) : (entriesAt fs loc).Nodup :=
    List.Nodup.of_map Entry.name (nodup_names_entriesAt fs loc)
  rw [List.perm_ext_iff_of_nodup (hnodup fs) (hnodup fs')]
  intro entry
  exact ⟨hkept h entry, hkept h.symm entry⟩

/-- Sorted, the answers for a path are the same. -/
theorem map_sorted_list_of_sameTree (h : SameTree fs fs') (path : Text) :
    (fs.list path).map sorted = (fs'.list path).map sorted := by
  cases hlist : fs.list path with
  | error e => rw [h.list_eq_error_iff.1 hlist]
  | ok entries =>
    rcases locate_of_list hlist with ⟨loc, hlocate⟩
    rw [list_of_locate hlocate] at hlist
    cases hlist
    rw [list_of_locate (h.locate_directory hlocate)]
    exact congrArg Except.ok
      (sorted_eq_of_perm (perm_entriesAt_of_sameTree h loc) (nodup_names_entriesAt fs loc))

/-! ## Searches -/

/-- An answer that agrees with a refusal once it is sorted is the same refusal. -/
theorem eq_error_of_map_sorted {answer : Except IoError (List Entry)} {e : IoError}
    (h : Except.error e = answer.map sorted) : answer = .error e := by
  cases answer with
  | error e' =>
    cases h
    rfl
  | ok entries => cases h

/-- An answer that agrees with a list of entries once both are sorted lists the same entries. -/
theorem exists_ok_of_map_sorted {answer : Except IoError (List Entry)} {entries : List Entry}
    (h : Except.ok (sorted entries) = answer.map sorted) :
    ∃ entries', answer = .ok entries' ∧ sorted entries' = sorted entries := by
  cases answer with
  | error e => cases h
  | ok entries' => exact ⟨entries', rfl, (Except.ok.inj h).symm⟩

/-- Listers whose answers agree once they are sorted give the same walk. -/
theorem walk_congr {lister lister' : BoundedLister}
    (h : ∀ path, (lister.list path).map sorted = (lister'.list path).map sorted) (dir : Text) :
    walk lister dir = walk lister' dir := by
  fun_induction walk lister dir with
  | case1 dir e hlist =>
    have hlist' := eq_error_of_map_sorted (hlist ▸ h dir)
    rw [walk_of_error hlist']
  | case2 dir entries hlist ih =>
    obtain ⟨entries', hlist', hsorted⟩ := exists_ok_of_map_sorted (hlist ▸ h dir)
    rw [walk_of_ok hlist', hsorted]
    simp only [ih]
    rfl

/-- In file systems with the same tree a search finds and logs the same, or fails alike. -/
theorem search_eq_of_sameTree (h : SameTree fs fs') (root : Text) (pattern : Pattern) :
    search fs.list root pattern = search fs'.list root pattern := by
  have hlists (path : Text) : ((Lister.bounded fs.list).list path).map sorted =
      ((Lister.bounded fs'.list).list path).map sorted := by
    rw [bounded_list, bounded_list, map_sorted_list_of_sameTree h]
  rw [search, search, walk_congr hlists]

end KernelTools.Wildcard

import KernelTools.Search
import Mathlib.Data.List.Basic

/-!
# Moving a path to the front

The first path of a name is moved in front of all others, which keep their order.  So the result is a
rearrangement of the paths; and since a path of that name stands in front then, doing it again changes
nothing.

Main results:

- Theorem {lit}`findIndex_eq_findIdx?`: a search finds the first item that satisfies its test.
- Theorem {lit}`moveToFront_eq`: rotating the items up to one of them puts it in front of the others.
- Theorem {lit}`firstNamedToFront_of_first`: what moving a path to the front comes to.
- Theorem {lit}`firstNamedToFront_firstNamedToFront`: doing it twice is doing it once.
-/

namespace KernelTools.Search

/-! ## The first item -/

/-- A search finds the first item that satisfies its test. -/
theorem findIndex_eq_findIdx? {α : Type} (test : α → Bool) (items : List α) :
    findIndex test items = items.findIdx? test := by
  induction items with
  | nil => rfl
  | cons item items ih =>
    rw [List.findIdx?_cons, ← ih, findIndex, firstHit]
    split <;> rfl

/-! ## Rotating a head of a list -/

/-- Rotating by one place brings the last item to the front. -/
theorem rotateRight_concat {α : Type} (before : List α) (item : α) :
    (before ++ [item]).rotateRight = item :: before := by
  cases before with
  | nil => rfl
  | cons first rest => simp [List.rotateRight]

/-- Moving an item to the front takes it out and puts it in front of the others. -/
theorem moveToFront_eq {α : Type} {items : List α} {index : Nat} (h : index < items.length) :
    moveToFront items index = items[index] :: items.eraseIdx index := by
  rw [moveToFront, ← List.take_append_getElem h, rotateRight_concat, List.eraseIdx_eq_take_drop_succ,
    List.cons_append]

/-- The item behind some others is moved in front of them. -/
theorem moveToFront_append_cons {α : Type} (before : List α) (item : α) (after : List α) :
    moveToFront (before ++ item :: after) before.length = item :: (before ++ after) := by
  rw [moveToFront_eq (by simp)]
  simp [List.eraseIdx_append_of_length_le]

/-! ## The first path of a name -/

variable {name path : Text} {paths before after arranged : List Text}

/-- The paths divide at the first one of a name: that is its file name, and it is not the file name
of any path before. -/
structure DividesAt (name : Text) (paths before : List Text) (path : Text) (after : List Text) :
    Prop where
  paths_eq : paths = before ++ path :: after
  fileName_eq : Path.fileName? path = some name
  fileName_ne : ∀ other ∈ before, Path.fileName? other ≠ some name

theorem pathIsNamed_iff : pathIsNamed path name = true ↔ Path.fileName? path = some name :=
  beq_iff_eq

/-- A path of a name is at hand just when there is a first one. -/
theorem exists_dividesAt_iff :
    (∃ before path after, DividesAt name paths before path after) ↔
      ∃ path ∈ paths, Path.fileName? path = some name := by
  constructor
  · rintro ⟨before, path, after, h⟩
    rw [h.paths_eq]
    exact ⟨path, by simp, h.fileName_eq⟩
  · intro h
    have hfind : (paths.find? (pathIsNamed · name)).isSome = true := by
      simpa [List.find?_isSome, pathIsNamed_iff] using h
    obtain ⟨path, hpath⟩ := Option.isSome_iff_exists.1 hfind
    obtain ⟨hnamed, before, after, hpaths, hbefore⟩ := List.find?_eq_some_iff_append.1 hpath
    refine ⟨before, path, after, hpaths, pathIsNamed_iff.1 hnamed, ?_⟩
    intro other hother heq
    have hother' := hbefore other hother
    rw [pathIsNamed_iff.2 heq] at hother'
    contradiction

/-- The first path of a name is moved in front of those before it. -/
theorem firstNamedToFront_of_first (h : DividesAt name paths before path after) :
    firstNamedToFront name paths = some (path :: (before ++ after)) := by
  have hbefore : before.findIdx? (pathIsNamed · name) = none := by
    simpa [List.findIdx?_eq_none_iff, pathIsNamed] using h.fileName_ne
  have hindex : paths.findIdx? (pathIsNamed · name) = some before.length := by
    rw [h.paths_eq, List.findIdx?_append, hbefore, List.findIdx?_cons,
      if_pos (pathIsNamed_iff.2 h.fileName_eq)]
    simp
  rw [firstNamedToFront, findIndex_eq_findIdx?, hindex, Option.map_some, h.paths_eq,
    moveToFront_append_cons]

/-- Nothing is moved when no path has the name. -/
theorem firstNamedToFront_eq_none_iff :
    firstNamedToFront name paths = none ↔ ∀ path ∈ paths, Path.fileName? path ≠ some name := by
  simp [firstNamedToFront, findIndex_eq_findIdx?, List.findIdx?_eq_none_iff, pathIsNamed]

theorem exists_first_of_firstNamedToFront (h : firstNamedToFront name paths = some arranged) :
    ∃ before path after, DividesAt name paths before path after ∧
      arranged = path :: (before ++ after) := by
  have hnamed : ∃ path ∈ paths, Path.fileName? path = some name := by
    by_contra hnone
    rw [firstNamedToFront_eq_none_iff.2 fun path hpath heq => hnone ⟨path, hpath, heq⟩] at h
    contradiction
  obtain ⟨before, path, after, hdivides⟩ := exists_dividesAt_iff.2 hnamed
  rw [firstNamedToFront_of_first hdivides] at h
  exact ⟨before, path, after, hdivides, (Option.some.inj h).symm⟩

/-- What was moved to the front stays there. -/
theorem firstNamedToFront_firstNamedToFront (h : firstNamedToFront name paths = some arranged) :
    firstNamedToFront name arranged = some arranged := by
  obtain ⟨before, path, after, hdivides, rfl⟩ := exists_first_of_firstNamedToFront h
  have hfront : DividesAt name (path :: (before ++ after)) [] path (before ++ after) :=
    ⟨rfl, hdivides.fileName_eq, by simp⟩
  rw [firstNamedToFront_of_first hfront, List.nil_append]

end KernelTools.Search

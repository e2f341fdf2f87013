import KernelTools.Proofs.Path.FileName
import KernelTools.Proofs.Search.Fronting
import Mathlib.Data.List.Induction
import Mathlib.Tactic.Tauto

/-!
# Which names a path goes by

A path goes by the name at its end, where slashes and {lit}`.` components that follow do not count.
So it goes by one name at most, and a path that goes by a name also holds it as a text.

Main results:

- Theorem {lit}`Path.splitSlash_eq_splitOn`: the segments of a path are what stands between its
  slashes.
- Theorem {lit}`Path.fileName?_eq_some_iff`: how a path reads that has a file name.
- Theorem {lit}`pathIsNamed_exact`: which names a path goes by, and what does not change that.
-/

namespace KernelTools

namespace Path

variable {path name segment before behind : Text} {front rest : List Text}

/-! ## Segments -/

/-- The segments of a path are what stands between its slashes. -/
theorem splitSlash_eq_splitOn (t : Text) : splitSlash t = t.splitOn '/' := by
  induction t with
  | nil => rfl
  | cons c rest ih =>
    rw [splitSlash, List.splitOn_eq_splitOnP, List.splitOnP_cons_eq_if_modifyHead,
      ← List.splitOn_eq_splitOnP, ih]
    by_cases hc : c = '/'
    · simp [hc]
    · rw [if_neg hc, if_neg (by simpa using hc)]
      cases hrest : rest.splitOn '/' with
      | nil => exact absurd (ih.trans hrest) (splitSlash_ne_nil rest)
      | cons segment segments => rfl

theorem slash_not_mem_of_mem_splitSlash {t : Text} (h : segment ∈ splitSlash t) :
    '/' ∉ segment := by
  induction t generalizing segment with
  | nil => simp_all [splitSlash]
  | cons c rest ih =>
    rw [splitSlash] at h
    split at h
    · rcases List.mem_cons.1 h with rfl | hmem
      · exact List.not_mem_nil
      · exact ih hmem
    · next hc =>
      cases hrest : splitSlash rest with
      | nil => exact absurd hrest (splitSlash_ne_nil rest)
      | cons first segments =>
        rw [hrest] at h ih
        rcases List.mem_cons.1 h with rfl | hmem
        · rw [List.mem_cons, not_or]
          exact ⟨Ne.symm hc, ih List.mem_cons_self⟩
        · exact ih (List.mem_cons_of_mem _ hmem)

/-- A segment among others, with the slashes around it. -/
theorem intercalate_append_cons (front : List Text) (segment : Text) (rest : List Text) :
    ['/'].intercalate (front ++ segment :: rest) =
      front.flatMap (· ++ ['/']) ++ segment ++ rest.flatMap ('/' :: ·) := by
  induction front with
  | nil =>
    induction rest generalizing segment with
    | nil => simp
    | cons next rest ih => simpa [List.intercalate_cons_cons] using ih next
  | cons first front ih =>
    rw [List.cons_append, List.intercalate_cons_of_ne_nil (by simp), ih]
    simp

/-- Segments, each behind a slash, are divided again by these slashes. -/
theorem splitSlash_flatMap (h : ∀ segment ∈ rest, '/' ∉ segment) :
    splitSlash (rest.flatMap ('/' :: ·)) = [] :: rest := by
  induction rest using List.reverseRecOn with
  | nil => rfl
  | append_singleton rest last ih =>
    have hrest : ∀ segment ∈ rest, '/' ∉ segment := fun segment hmem =>
      h segment (List.mem_append_left _ hmem)
    have hlast : '/' ∉ last := h last (by simp)
    rw [List.flatMap_append, List.flatMap_singleton, splitSlash_append_slash, ih hrest,
      splitSlash_of_not_mem hlast, List.cons_append]

/-! ## The file name -/

/-- A text that can be a file name. -/
structure IsFileName (name : Text) : Prop where
  ne_nil : name ≠ []
  slash_not_mem : '/' ∉ name
  ne_here : name ≠ ['.']
  ne_up : name ≠ ['.', '.']

/-- A path ends in a name: what stands before it is empty or ends in a slash, and what stands behind
it is empty or starts with a slash and has only empty and {lit}`.` components. -/
structure EndsIn (path name before behind : Text) : Prop where
  path_eq : path = before ++ name ++ behind
  before_eq : before = [] ∨ before.getLast? = some '/'
  behind_eq : behind = [] ∨ behind.head? = some '/'
  idle : ∀ component ∈ behind.splitOn '/', component = [] ∨ component = ['.']

theorem components_eq_nil_iff :
    components path = [] ↔ ∀ component ∈ path.splitOn '/', component = [] ∨ component = ['.'] := by
  rw [components, List.filter_eq_nil_iff, splitSlash_eq_splitOn]
  simp only [decide_eq_true_eq]
  exact forall₂_congr fun component _ => by tauto

/-- The last component of a path, with the segments around it. -/
theorem exists_splitSlash_of_getLast? (h : (components path).getLast? = some name) :
    ∃ front rest, splitSlash path = front ++ name :: rest ∧ name ≠ [] ∧ name ≠ ['.'] ∧
      ∀ segment ∈ rest, segment = [] ∨ segment = ['.'] := by
  obtain ⟨others, hcomponents⟩ := List.getLast?_eq_some_iff.1 h
  obtain ⟨front, back, hsplit, -, hback⟩ := List.filter_eq_append_iff.1 hcomponents
  obtain ⟨skipped, rest, rfl, -, hname, hrest⟩ := List.filter_eq_cons_iff.1 hback
  rw [decide_eq_true_eq] at hname
  refine ⟨front ++ skipped, rest, by simpa using hsplit, hname.1, hname.2, ?_⟩
  intro segment hmem
  have hidle := List.filter_eq_nil_iff.1 hrest segment hmem
  rw [decide_eq_true_eq] at hidle
  tauto

theorem exists_endsIn_of_fileName? (h : fileName? path = some name) :
    IsFileName name ∧ ∃ before behind, EndsIn path name before behind := by
  obtain ⟨hlast, hup⟩ : (components path).getLast? = some name ∧ name ≠ ['.', '.'] := by
    rw [fileName?] at h
    split at h
    · next component hcomponent =>
      split at h
      · contradiction
      · next hup =>
        cases h
        exact ⟨hcomponent, hup⟩
    · contradiction
  obtain ⟨front, rest, hsplit, hne, hhere, hidle⟩ := exists_splitSlash_of_getLast? hlast
  have hslash : ∀ segment ∈ splitSlash path, '/' ∉ segment := fun _ =>
    slash_not_mem_of_mem_splitSlash
  rw [hsplit] at hslash
  have hrest : ∀ segment ∈ rest, '/' ∉ segment := fun segment hmem => hslash segment (by simp [hmem])
  refine ⟨⟨hne, hslash name (by simp), hhere, hup⟩, front.flatMap (· ++ ['/']),
    rest.flatMap ('/' :: ·), ?_, ?_, ?_, ?_⟩
  · rw [← intercalate_append_cons front name rest, ← hsplit, splitSlash_eq_splitOn,
      List.intercalate_splitOn]
  · cases front using List.reverseRecOn with
    | nil => exact .inl rfl
    | append_singleton front last =>
      refine .inr ?_
      rw [List.flatMap_append, List.flatMap_singleton, ← List.append_assoc, List.getLast?_concat]
  · cases rest with
    | nil => exact .inl rfl
    | cons next rest => exact .inr rfl
  · rw [← splitSlash_eq_splitOn, splitSlash_flatMap hrest]
    intro component hmem
    rcases List.mem_cons.1 hmem with rfl | hmem
    · exact .inl rfl
    · exact hidle component hmem

/-- What stands behind the name of a path adds no component. -/
theorem components_name_append (hname : IsFileName name) (h : EndsIn path name before behind) :
    components (name ++ behind) = [name] := by
  have hone : components name = [name] := by
    rw [components, splitSlash_of_not_mem hname.slash_not_mem]
    simp [hname.ne_nil, hname.ne_here]
  cases behind with
  | nil => rw [List.append_nil, hone]
  | cons c rest =>
    obtain rfl : c = '/' := by simpa using h.behind_eq
    have hempty : components ('/' :: rest) = [] := components_eq_nil_iff.2 h.idle
    have hrest : components rest = [] := by
      rw [← List.nil_append ('/' :: rest), components_append_slash] at hempty
      exact (List.append_eq_nil_iff.1 hempty).2
    rw [components_append_slash, hone, hrest, List.append_nil]

theorem fileName?_of_endsIn (hname : IsFileName name) (h : EndsIn path name before behind) :
    fileName? path = some name := by
  obtain ⟨others, hcomponents⟩ : ∃ others, components path = others ++ [name] := by
    have hend := components_name_append hname h
    rcases h.before_eq with rfl | hbefore
    · exact ⟨[], by rw [h.path_eq, List.nil_append, hend, List.nil_append]⟩
    · obtain ⟨front, rfl⟩ := List.getLast?_eq_some_iff.1 hbefore
      refine ⟨components front, ?_⟩
      rw [h.path_eq, List.append_assoc, List.append_assoc, List.singleton_append,
        components_append_slash, hend]
  simp [fileName?, hcomponents, hname.ne_up]

/-- How a path reads that has a file name. -/
theorem fileName?_eq_some_iff :
    fileName? path = some name ↔ IsFileName name ∧ ∃ before behind, EndsIn path name before behind := by
  constructor
  · exact exists_endsIn_of_fileName?
  · rintro ⟨hname, before, behind, h⟩
    exact fileName?_of_endsIn hname h

/-- An empty or {lit}`.` component at the end does not change the file name. -/
theorem fileName?_append_slash {idle : Text} (h : components idle = []) (path : Text) :
    fileName? (path ++ '/' :: idle) = fileName? path := by
  rw [fileName?, fileName?, components_append_slash, h, List.append_nil]

end Path

namespace Search

open KernelTools.Path (IsFileName EndsIn)

/-! ## Naming -/

/-- A text occurs in another when it is a stretch of it. -/
theorem occursIn_iff {needle t : Text} : occursIn needle t = true ↔ needle <:+: t := by
  induction t with
  | nil => simp [occursIn]
  | cons c rest ih => simp [occursIn, List.infix_cons_iff, ih]

/-- A path goes by a name just when the name can be a file name and the path ends in it.  It goes by
no other, and as well with a slash, or a slash and a dot, behind it; and a path that goes by a name
holds it as a text does that goes by it. -/
theorem pathIsNamed_exact (path name : Text) :
    (pathIsNamed path name = true ↔
      IsFileName name ∧ ∃ before behind, EndsIn path name before behind) ∧
      (pathIsNamed path name = true → ∀ other, pathIsNamed path other = true → other = name) ∧
      pathIsNamed (path ++ ['/']) name = pathIsNamed path name ∧
      pathIsNamed (path ++ ['/', '.']) name = pathIsNamed path name ∧
      (textIsNamed path name = true ↔ name <:+: path) ∧
      (pathIsNamed path name = true → textIsNamed path name = true) := by
  refine ⟨?_, ?_, ?_, ?_, occursIn_iff, ?_⟩
  · rw [pathIsNamed_iff, Path.fileName?_eq_some_iff]
  · intro hname other hother
    rw [pathIsNamed_iff] at hname hother
    exact Option.some.inj (hother.symm.trans hname)
  · rw [pathIsNamed, Path.fileName?_append_slash rfl, pathIsNamed]
  · rw [pathIsNamed, Path.fileName?_append_slash rfl, pathIsNamed]
  · intro hname
    obtain ⟨-, before, behind, hends⟩ := Path.fileName?_eq_some_iff.1 (pathIsNamed_iff.1 hname)
    exact occursIn_iff.2 ⟨before, behind, hends.path_eq.symm⟩

end Search

end KernelTools

import KernelTools.Proofs.Path.Joining

/-!
# File names of joined paths

The file name of a path is its last component.  Joining a name adds that name to the components,
whatever the path is to which it is joined: one that ends in a slash, in dots, or in none of these.

Main results:

- Theorem {lit}`components_join`: joining a name adds one component.
- Theorem {lit}`fileName?_below`: the file name of a path of names is the last of them.
-/

namespace KernelTools.Path

/-- A slash divides the components before it from those behind it. -/
theorem components_append_slash (s t : Text) :
    components (s ++ '/' :: t) = components s ++ components t := by
  rw [components, components, components, splitSlash_append_slash, List.filter_append]

/-- A name is one component. -/
theorem components_name (name : Name) : components name.text = [name.text] := by
  rcases name.isName with ⟨hne, -, -, -, hhere, -⟩
  rw [components, splitSlash_of_not_mem name.slash_not_mem]
  simp [hne, hhere]

/-- Joining a name adds one component. -/
theorem components_join (dir : Text) (name : Name) :
    components (join dir name) = components dir ++ [name.text] := by
  cases hslash : endsInSlash dir with
  | false =>
    have hjoin : join dir name = dir ++ '/' :: name.text := by simp [join, hslash]
    rw [hjoin, components_append_slash, components_name]
  | true =>
    rcases endsInSlash_iff.1 hslash with ⟨front, rfl⟩
    have hjoin : join (front ++ ['/']) name = front ++ '/' :: name.text := by simp [join, hslash]
    have hempty : components [] = [] := rfl
    rw [hjoin, components_append_slash, components_append_slash, components_name, hempty,
      List.append_nil]

/-- The file name of a path to which a name was joined is that name. -/
theorem fileName?_join (dir : Text) (name : Name) : fileName? (join dir name) = some name.text := by
  have hup : name.text ≠ ['.', '.'] := name.isName.2.2.2.2.2
  simp [fileName?, components_join, hup]

/-- The file name of a path of names is the last of them. -/
theorem fileName?_below (root : Text) (parents : List Name) (name : Name) :
    fileName? (below root (parents ++ [name])) = some name.text := by
  have hne : parents ++ [name] ≠ [] := by simp
  rw [← foldl_join root hne, List.foldl_append]
  exact fileName?_join _ name

end KernelTools.Path

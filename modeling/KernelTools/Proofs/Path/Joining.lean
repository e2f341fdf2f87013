import KernelTools.Path
import Mathlib.Data.List.Basic

/-!
# Joining names to a path

Joining a name to a path adds one segment and one step and leaves the start of the path as it is.
Names hold no slash, so the names that were joined can be read off the text again.

Main results:

- Theorem {lit}`Path.steps_join`: joining a name adds one step down.
- Theorem {lit}`Path.foldl_join`: joining names one after the other gives a path text in one piece.
- Theorem {lit}`Path.below_injective`: the names that were joined can be read off the path.
-/

namespace KernelTools

namespace Name

/-- A name is its text. -/
theorem text_injective : Function.Injective Name.text := by
  intro m n h
  cases m
  cases n
  simpa using h

theorem slash_not_mem (n : Name) : '/' ∉ n.text :=
  n.isName.2.2.1

theorem nul_not_mem (n : Name) : '\x00' ∉ n.text :=
  n.isName.2.2.2.1

end Name

namespace Path

/-! ## Segments -/

/-- A text without a slash is one segment. -/
theorem splitSlash_of_not_mem {t : Text} (h : '/' ∉ t) : splitSlash t = [t] := by
  induction t with
  | nil => rfl
  | cons c rest ih =>
    rw [List.mem_cons, not_or] at h
    rw [splitSlash, if_neg (Ne.symm h.1), ih h.2]

/-- A slash divides the segments before it from those behind it. -/
theorem splitSlash_append_slash (s t : Text) :
    splitSlash (s ++ '/' :: t) = splitSlash s ++ splitSlash t := by
  induction s with
  | nil => simp [splitSlash]
  | cons c rest ih =>
    rw [List.cons_append, splitSlash, splitSlash, ih]
    split
    · rfl
    · cases hrest : splitSlash rest with
      | nil => exact absurd hrest (splitSlash_ne_nil rest)
      | cons segment segments => rfl

/-! ## Ends of a path -/

theorem endsInSlash_iff {path : Text} : endsInSlash path = true ↔ ∃ front, path = front ++ ['/'] := by
  rw [endsInSlash, beq_iff_eq, List.getLast?_eq_some_iff]

/-- A path that ends in a name does not end in a slash. -/
theorem endsInSlash_append_name (front : Text) (name : Name) :
    endsInSlash (front ++ name.text) = false := by
  rw [← Bool.not_eq_true, endsInSlash, beq_iff_eq,
    List.getLast?_append_of_ne_nil front name.text_ne_nil]
  intro h
  exact name.slash_not_mem (List.mem_of_getLast? h)

theorem endsInSlash_name (name : Name) : endsInSlash name.text = false :=
  endsInSlash_append_name [] name

theorem isAbsolute_name (name : Name) : isAbsolute name.text = false := by
  rw [← Bool.not_eq_true, isAbsolute, beq_iff_eq]
  intro h
  exact name.slash_not_mem (List.mem_of_mem_head? h)

/-- What stands between a directory's path and a name: a slash, unless the path ends in one. -/
def separator (dir : Text) : Text :=
  if endsInSlash dir then [] else ['/']

theorem nul_not_mem_separator (dir : Text) : '\x00' ∉ separator dir := by
  rw [separator]
  split <;> simp

theorem join_eq (dir : Text) (name : Name) : join dir name = dir ++ separator dir ++ name.text := by
  rw [join, separator]
  split <;> simp

theorem join_ne_nil (dir : Text) (name : Name) : join dir name ≠ [] := by
  rw [join_eq]
  exact List.append_ne_nil_of_right_ne_nil _ name.text_ne_nil

@[simp]
theorem endsInSlash_join (dir : Text) (name : Name) : endsInSlash (join dir name) = false := by
  rw [join_eq]
  exact endsInSlash_append_name _ name

/-- A path that starts somewhere still starts there when a name is joined. -/
theorem isAbsolute_join {dir : Text} (hdir : dir ≠ []) (name : Name) :
    isAbsolute (join dir name) = isAbsolute dir := by
  rcases List.exists_cons_of_ne_nil hdir with ⟨c, rest, rfl⟩
  simp [join_eq, isAbsolute]

theorem isAbsolute_append {dir : Text} (h : isAbsolute dir = true) (rest : Text) :
    isAbsolute (dir ++ rest) = true := by
  simp_all [isAbsolute, List.head?_append]

theorem endsInSlash_append {path : Text} (hne : path ≠ []) (front : Text) :
    endsInSlash (front ++ path) = endsInSlash path := by
  rw [endsInSlash, endsInSlash, List.getLast?_append_of_ne_nil front hne]

theorem nul_mem_join {dir : Text} {name : Name} :
    '\x00' ∈ join dir name ↔ '\x00' ∈ dir := by
  have hname := name.nul_not_mem
  simp [join_eq, nul_not_mem_separator, hname]

/-! ## Steps -/

/-- A name is a step down. -/
theorem ofSegment?_name (name : Name) : Step.ofSegment? name.text = some (.down name) := by
  rcases name.isName with ⟨-, -, -, -, hhere, hup⟩
  rw [Step.ofSegment?, if_neg hhere, if_neg hup, dif_pos name.isName]

/-- A name alone is one step down. -/
theorem steps_name (name : Name) : steps name.text = [.down name] := by
  simp [steps, splitSlash_of_not_mem name.slash_not_mem, ofSegment?_name]

/-- What is put behind a path adds its own steps. -/
theorem steps_append_separator (dir path : Text) :
    steps (dir ++ separator dir ++ path) = steps dir ++ steps path := by
  cases hslash : endsInSlash dir with
  | false =>
    have hjoin : dir ++ separator dir ++ path = dir ++ '/' :: path := by simp [separator, hslash]
    rw [steps, steps, hjoin, splitSlash_append_slash, List.filterMap_append, steps]
  | true =>
    rcases endsInSlash_iff.1 hslash with ⟨front, rfl⟩
    have hjoin : front ++ ['/'] ++ separator (front ++ ['/']) ++ path = front ++ '/' :: path := by
      simp [separator, hslash]
    have hempty : (splitSlash []).filterMap Step.ofSegment? = [] := by decide
    rw [steps, steps, hjoin, splitSlash_append_slash, splitSlash_append_slash, List.filterMap_append,
      List.filterMap_append, hempty, List.append_nil, steps]

/-- Joining a name adds one step down. -/
theorem steps_join (dir : Text) (name : Name) : steps (join dir name) = steps dir ++ [.down name] := by
  rw [join_eq, steps_append_separator, steps_name]

/-- Slashes at the end of a path add no step. -/
theorem steps_append_slashes (path : Text) (n : Nat) :
    steps (path ++ List.replicate n '/') = steps path := by
  induction n with
  | zero => rw [List.replicate_zero, List.append_nil]
  | succ n ih =>
    have hempty : (splitSlash []).filterMap Step.ofSegment? = [] := by decide
    rw [List.replicate_succ', ← List.append_assoc, steps, splitSlash_append_slash,
      List.filterMap_append, hempty, List.append_nil]
    exact ih

/-! ## Several names -/

/-- The path of names beneath a directory: the path of the directory, a slash unless that ends in
one, and the names with slashes between. -/
def below (dir : Text) (names : List Name) : Text :=
  dir ++ separator dir ++ ['/'].intercalate (names.map Name.text)

/-- Joining names one after the other gives their path beneath the directory. -/
theorem foldl_join (dir : Text) {names : List Name} (hne : names ≠ []) :
    names.foldl join dir = below dir names := by
  induction names generalizing dir with
  | nil => exact absurd rfl hne
  | cons name names ih =>
    cases names with
    | nil => simp [below, join_eq]
    | cons next names =>
      rw [List.foldl_cons, ih (join dir name) (List.cons_ne_nil _ _), below, below, separator,
        endsInSlash_join, join_eq]
      simp [List.intercalate]

/-- Each name that is joined adds one step down. -/
theorem steps_foldl_join (dir : Text) (names : List Name) :
    steps (names.foldl join dir) = steps dir ++ names.map .down := by
  induction names generalizing dir with
  | nil => simp
  | cons name names ih => rw [List.foldl_cons, ih, steps_join, List.map_cons, List.append_assoc]; rfl

theorem nul_mem_foldl_join {dir : Text} {names : List Name} :
    '\x00' ∈ names.foldl join dir ↔ '\x00' ∈ dir := by
  induction names generalizing dir with
  | nil => rfl
  | cons name names ih => rw [List.foldl_cons, ih, nul_mem_join]

theorem isAbsolute_foldl_join {dir : Text} (hdir : dir ≠ []) (names : List Name) :
    isAbsolute (names.foldl join dir) = isAbsolute dir := by
  induction names generalizing dir with
  | nil => rfl
  | cons name names ih => rw [List.foldl_cons, ih (join_ne_nil dir name), isAbsolute_join hdir]

/-- Names with slashes between are divided again by these slashes. -/
theorem splitSlash_intercalate {names : List Name} (hne : names ≠ []) :
    splitSlash (['/'].intercalate (names.map Name.text)) = names.map Name.text := by
  induction names with
  | nil => exact absurd rfl hne
  | cons name names ih =>
    cases names with
    | nil => simp [splitSlash_of_not_mem name.slash_not_mem]
    | cons next names =>
      have hjoined : ['/'].intercalate ((name :: next :: names).map Name.text) =
          name.text ++ '/' :: ['/'].intercalate ((next :: names).map Name.text) := by
        simp [List.intercalate]
      rw [hjoined, splitSlash_append_slash, ih (List.cons_ne_nil _ _),
        splitSlash_of_not_mem name.slash_not_mem]
      rfl

/-- The names that were joined can be read off the path. -/
theorem below_injective {dir : Text} {names names' : List Name} (hne : names ≠ [])
    (hne' : names' ≠ []) (h : below dir names = below dir names') : names = names' := by
  have htexts : ['/'].intercalate (names.map Name.text) =
      ['/'].intercalate (names'.map Name.text) :=
    List.append_cancel_left h
  have hmap : names.map Name.text = names'.map Name.text := by
    rw [← splitSlash_intercalate hne, htexts, splitSlash_intercalate hne']
  exact List.map_injective_iff.2 Name.text_injective hmap

end Path

end KernelTools

import KernelTools.Text

/-!
# Path texts

A path is a text; {lit}`/` separates its components, repeated separators mean the same as one, and a
{lit}`.` component stands for the directory reached so far.  Nothing here looks at a disk.

Main results:

- Theorem {lit}`splitSlash_ne_nil`: a text always has at least one segment.
- Theorem {lit}`octets_lt_join`: joining a name makes a path longer.
-/

namespace KernelTools

/-! ## Names -/

/-- The longest name, in octets, that an entry can have. -/
def maxNameOctets : Nat := 255

/-- A text that can name a directory entry: it is not empty and has at most {lean}`maxNameOctets`
octets, holds neither {lit}`/` nor NUL, and is neither {lit}`.` nor {lit}`..`. -/
def IsName (t : Text) : Prop :=
  t ≠ [] ∧ t.octets ≤ maxNameOctets ∧ '/' ∉ t ∧ '\x00' ∉ t ∧ t ≠ ['.'] ∧ t ≠ ['.', '.']

instance (t : Text) : Decidable (IsName t) :=
  inferInstanceAs (Decidable (_ ∧ _))

/-- The name of a directory entry. -/
structure Name where
  text : Text
  isName : IsName text
deriving DecidableEq

namespace Name

/-- The octets of a name, by which names are ordered. -/
def bytes (n : Name) : Bytes :=
  n.text.utf8

/-- Names are ordered by their octets. -/
def le (m n : Name) : Bool :=
  decide (m.bytes ≤ n.bytes)

theorem text_ne_nil (n : Name) : n.text ≠ [] :=
  n.isName.1

end Name

namespace Path

/-! ## Components -/

/-- The segments of a text between its slashes, empty ones included. -/
def splitSlash : Text → List Text
  | [] => [[]]
  | c :: rest =>
    if c = '/' then [] :: splitSlash rest
    else match splitSlash rest with
      | [] => [[c]]
      | segment :: segments => (c :: segment) :: segments

/-- A text always has at least one segment. -/
theorem splitSlash_ne_nil (t : Text) : splitSlash t ≠ [] := by
  cases t with
  | nil => simp [splitSlash]
  | cons c rest =>
    rw [splitSlash]
    split
    · simp
    · split <;> simp

/-- One step of a path. -/
inductive Step
  /-- {lit}`.`: stay. -/
  | here
  /-- {lit}`..`: go to the parent. -/
  | up
  /-- Go to the entry of this name. -/
  | down (name : Name)
  /-- Go to an entry by a name that is too long for any. -/
  | overlong
deriving DecidableEq

/-- The step that a segment stands for; an empty segment is no step. -/
def Step.ofSegment? (segment : Text) : Option Step :=
  if segment = ['.'] then some .here
  else if segment = ['.', '.'] then some .up
  else if h : IsName segment then some (.down ⟨segment, h⟩)
  else if maxNameOctets < segment.octets then some .overlong
  else none

/-- The steps of a path, in order. -/
def steps (path : Text) : List Step :=
  (splitSlash path).filterMap Step.ofSegment?

/-- Whether a path starts at the root. -/
def isAbsolute (path : Text) : Bool :=
  path.head? == some '/'

/-- Whether a path ends in a slash. -/
def endsInSlash (path : Text) : Bool :=
  path.getLast? == some '/'

/-! ## Joining -/

/-- The path of an entry: the path of its directory, a slash unless that ends in one, and the
name. -/
def join (dir : Text) (name : Name) : Text :=
  if endsInSlash dir then dir ++ name.text else dir ++ '/' :: name.text

/-- The longest path, in octets, that names anything. -/
def maxOctets : Nat := 4095

/-- Joining a name makes a path longer. -/
theorem octets_lt_join (dir : Text) (name : Name) : dir.octets < (join dir name).octets := by
  rw [join]
  split
  · cases h : name.text with
    | nil => exact absurd h name.text_ne_nil
    | cons c t =>
      rw [Text.octets_append]
      have := Text.octets_cons_pos c t
      omega
  · rw [Text.octets_append]
    have := Text.octets_cons_pos '/' name.text
    omega

/-! ## File names -/

/-- Components of a path that are not {lit}`.`. -/
def components (path : Text) : List Text :=
  (splitSlash path).filter fun segment => segment ≠ [] ∧ segment ≠ ['.']

/-- The file name of a path: its last component, unless that is {lit}`..` or there is none. -/
def fileName? (path : Text) : Option Text :=
  match (components path).getLast? with
  | some component => if component = ['.', '.'] then none else some component
  | none => none

/-- The path that leads through some components from where a path starts. -/
def throughComponents (path : Text) (parts : List Text) : Text :=
  let joined := ['/'].intercalate parts
  if isAbsolute path then '/' :: joined else joined

/-- The directory part of a path: all its components but the last. -/
def parent? (path : Text) : Option Text :=
  if components path = [] then none
  else some (throughComponents path (components path).dropLast)

/-- The paths that lead through some, but not all, components of a path, the shortest first. -/
def ancestors (path : Text) : List Text :=
  (List.range (components path).length).tail.map fun count =>
    throughComponents path ((components path).take count)

end Path

end KernelTools

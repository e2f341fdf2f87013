import KernelTools.Path

/-!
# Finding items by file name

Lists are searched for the first item that satisfies a test.  Free text is matched loosely, by
containment, since it may be a whole command line; a path is matched by its file name alone.
-/

namespace KernelTools.Search

/-! ## Searching a list -/

/-- The result of a search: where the first hit is, and how many items were tested. -/
structure Hit where
  index : Option Nat
  tested : Nat
deriving DecidableEq

/-- Searches a list from its head and stops at the first item that satisfies the test. -/
def firstHit {α : Type} (test : α → Bool) : List α → Hit
  | [] => ⟨none, 0⟩
  | item :: items =>
    if test item then ⟨some 0, 1⟩
    else
      let hit := firstHit test items
      ⟨hit.index.map (· + 1), hit.tested + 1⟩

/-- The index of the first item that satisfies the test. -/
def findIndex {α : Type} (test : α → Bool) (items : List α) : Option Nat :=
  (firstHit test items).index

/-! ## Matching by name -/

/-- Whether a text occurs in another. -/
def occursIn (needle : Text) : Text → Bool
  | [] => needle.isEmpty
  | c :: rest => needle.isPrefixOf (c :: rest) || occursIn needle rest

/-- Free text goes by every name that occurs in it. -/
def textIsNamed (text name : Text) : Bool :=
  occursIn name text

/-- A path goes by its file name only. -/
def pathIsNamed (path name : Text) : Bool :=
  Path.fileName? path == some name

/-! ## Reordering -/

/-- Moves the item at an index to the front: the items up to it are rotated by one place. -/
def moveToFront {α : Type} (items : List α) (index : Nat) : List α :=
  (items.take (index + 1)).rotateRight ++ items.drop (index + 1)

/-- Moves the first path that goes by a name to the front; {lean}`none` when no path does. -/
def firstNamedToFront (name : Text) (paths : List Text) : Option (List Text) :=
  (findIndex (pathIsNamed · name) paths).map (moveToFront paths)

end KernelTools.Search

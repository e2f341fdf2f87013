import KernelTools.Toml.Value

/-!
# Building tables

A table is built by adding values under keys.  A dotted key makes the tables on its way; it may go
through tables that dotted keys made, and through no other.  A header may go through every table
that braces did not complete, and through the latest of an array of tables.  Nothing is ever
replaced.

Main results:

- Theorem {lit}`keys_replace`: replacing the value under a key keeps the keys.
-/

namespace KernelTools.Toml.Table

/-! ## Keys -/

/-- The value under a key. -/
def get? (t : Table) (key : Text) : Option Value :=
  t.lookup key

/-- Replaces the value under a key that is there. -/
def replace (key : Text) (value : Value) : Table → Table
  | [] => []
  | entry :: rest => if entry.1 = key then (key, value) :: rest else entry :: replace key value rest

/-- Replacing the value under a key keeps the keys. -/
theorem keys_replace (key : Text) (value : Value) (t : Table) :
    (replace key value t).map Prod.fst = t.map Prod.fst := by
  induction t with
  | nil => rfl
  | cons entry rest ih =>
    rw [replace]
    split
    · next h => simp [h]
    · simp [ih]

/-- Adds a value under a new key. -/
def add (t : Table) (key : Text) (value : Value) : Option Table :=
  match t.get? key with
  | none => some (t ++ [(key, value)])
  | some _ => none

/-! ## Dotted keys -/

/-- Adds a value under a dotted key, given by its first part and the parts behind it. -/
def addDotted (t : Table) (key : Text) (value : Value) : List Text → Option Table
  | [] => t.add key value
  | next :: more =>
    match t.get? key with
    | none => (addDotted [] next value more).map fun inner => t ++ [(key, .table .dotted inner)]
    | some (.table .dotted inner) =>
      (addDotted inner next value more).map fun inner' => replace key (.table .dotted inner') t
    | some _ => none

/-! ## Headers -/

/-- Changes the table that a header leads to, making the tables on the way that are missing. -/
def changeAt (t : Table) (change : Table → Option Table) : List Text → Option Table
  | [] => change t
  | key :: path =>
    match t.get? key with
    | none => (changeAt [] change path).map fun inner => t ++ [(key, .table .implied inner)]
    | some (.table .braces _) => none
    | some (.table origin inner) =>
      (changeAt inner change path).map fun inner' => replace key (.table origin inner') t
    | some (.tables (latest :: earlier)) =>
      (changeAt latest change path).map fun latest' =>
        replace key (.tables (latest' :: earlier)) t
    | some _ => none

/-- Opens the table of a header in the table above it. -/
def openTable (key : Text) (t : Table) : Option Table :=
  match t.get? key with
  | none => some (t ++ [(key, .table .header [])])
  | some (.table .implied inner) => some (replace key (.table .header inner) t)
  | some _ => none

/-- Opens one more table of an array of tables. -/
def openNext (key : Text) (t : Table) : Option Table :=
  match t.get? key with
  | none => some (t ++ [(key, .tables [[]])])
  | some (.tables tables) => some (replace key (.tables ([] :: tables)) t)
  | some _ => none

end KernelTools.Toml.Table

import KernelTools.FileSystem.Basic

/-!
# Resolving paths

A path is resolved step by step from the root or the working directory.  Symbolic links are
followed wherever a further step needs a directory, and at the last step unless the entry itself is
meant; a link puts its own steps in front of those that remain.  At most forty links are followed in
one resolution, so cyclic links end in an error.

The order of the checks decides which of several faults a path is blamed for: a NUL anywhere, then
the empty path, then the length of the whole path, then, step by step, a file used as a directory,
the length of a name, and an entry that is not there.
-/

namespace KernelTools

/-- Why a path or a file cannot be used. -/
inductive IoError
  | notFound
  | notADirectory
  | isADirectory
  | invalidInput
  | invalidFilename
  | filesystemLoop
  | alreadyExists
  | directoryNotEmpty
deriving DecidableEq

namespace FileSystem

/-! ## Outcomes -/

/-- Where a path leads. -/
inductive Target
  /-- To a node that is there. -/
  | present (loc : Location) (node : Node)
  /-- To a free name in a directory that is there. -/
  | absent (dir : Location) (name : Name)
deriving DecidableEq

/-- What a path is resolved for. -/
inductive Purpose
  /-- To use what the path leads to, through links. -/
  | use
  /-- To use what the path leads to, or to make a file there. -/
  | create
  /-- To handle the last entry itself, without following it. -/
  | entry
deriving DecidableEq

/-- Links followed in one resolution before it is given up. -/
def maxLinks : Nat := 40

/-- Where the steps of a path start. -/
def startOf (dir : Location) (path : Text) : Location :=
  if Path.isAbsolute path then [] else dir

/-! ## Resolution -/

/-- Takes the remaining steps of a path from a directory, with a number of links still to follow.
The flag tells whether the path ends in a slash, which asks for a directory at its end. -/
def resolve (fs : FileSystem) (purpose : Purpose) (links : Nat) (dir : Location)
    (steps : List Path.Step) (slash : Bool) : Except IoError Target :=
  match steps with
  | [] =>
    if fs.nodeAt dir = some .directory then .ok (.present dir .directory) else .error .notFound
  | .here :: rest => fs.resolve purpose links dir rest slash
  | .up :: rest => fs.resolve purpose links dir.tail rest slash
  | .overlong :: rest =>
    if purpose = .create ∧ rest = [] ∧ slash then .error .isADirectory else .error .invalidFilename
  | .down name :: rest =>
    if purpose = .create ∧ rest = [] ∧ slash then .error .isADirectory
    else if fs.nodeAt dir ≠ some .directory then .error .notFound
    else
      match fs.nodeAt (name :: dir) with
      | none => if rest = [] then .ok (.absent dir name) else .error .notFound
      | some .directory => fs.resolve purpose links (name :: dir) rest slash
      | some (.link target) =>
        if purpose = .entry ∧ rest = [] ∧ slash = false then
          .ok (.present (name :: dir) (.link target))
        else
          match links with
          | 0 => .error .filesystemLoop
          | links + 1 =>
            fs.resolve purpose links (startOf dir target) (Path.steps target ++ rest)
              (if rest = [] then slash || Path.endsInSlash target else slash)
      | some node =>
        if rest = [] ∧ slash = false then .ok (.present (name :: dir) node)
        else .error .notADirectory
termination_by (links, steps.length)

/-- Finds where a path leads. -/
def locate (fs : FileSystem) (purpose : Purpose) (path : Text) : Except IoError Target :=
  if '\x00' ∈ path then .error .invalidInput
  else if path = [] then .error .notFound
  else if Path.maxOctets < path.octets then .error .invalidFilename
  else
    fs.resolve purpose maxLinks (startOf fs.workingDirectory path) (Path.steps path)
      (Path.endsInSlash path)

end FileSystem

end KernelTools

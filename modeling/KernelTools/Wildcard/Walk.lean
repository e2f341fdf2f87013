import KernelTools.FileSystem.Access
import KernelTools.Log
import KernelTools.Wildcard.Matching

/-!
# Searching a directory tree

A search visits a directory, then each of its real subdirectories with all that lies beneath, in
the order of the names' octets.  Symbolic links are entries like any other and are never entered.
A directory beneath the root that cannot be listed is skipped; the root has to be listable.

Every directory is listed by the text of its path, and joining a name makes a path longer.  So a walk
ends with any lister that lists no path of more than {lean}`Path.maxOctets` octets.  That bound is a
matter of the lister and not of the walk: a {lit}`BoundedLister` keeps it, and {lit}`Lister.bounded` makes
one of any lister, which leaves a lister that reads a file system as it is.
-/

namespace KernelTools.Wildcard

open FileSystem (Entry)

/-! ## Visits -/

/-- Answers for the text of a path what its directory holds. -/
abbrev Lister := Text → Except IoError (List Entry)

/-- A lister that lists no path that is too long. -/
structure BoundedLister where
  list : Lister
  octets_le : ∀ {dir : Text} {entries : List Entry}, list dir = .ok entries →
    dir.octets ≤ Path.maxOctets

/-- The same lister, but with paths that are too long refused. -/
def Lister.bounded (lister : Lister) : BoundedLister where
  list dir :=
    match lister dir with
    | .error e => .error e
    | .ok entries =>
      if dir.octets ≤ Path.maxOctets then .ok entries else .error .invalidFilename
  octets_le := by
    intro dir entries h
    split at h
    · contradiction
    · split at h
      · assumption
      · contradiction

/-- What happened at a directory that a search came to. -/
inductive Visit
  /-- The directory was listed; its entries are in the order of their names. -/
  | listed (dir : Text) (entries : List Entry)
  /-- The directory could not be listed. -/
  | skipped (dir : Text) (cause : IoError)

/-- The entries of a directory in the order of their names' octets. -/
def sorted (entries : List Entry) : List Entry :=
  entries.mergeSort fun a b => a.name.le b.name

/-- Visits a directory and, beneath it, every directory that can be reached without a link, each
before what it holds. -/
def walk (lister : BoundedLister) (dir : Text) : Except IoError (List Visit) :=
  match _h : lister.list dir with
  | .error e => .error e
  | .ok entries =>
    .ok (.listed dir (sorted entries) :: (sorted entries).flatMap fun entry =>
      if entry.isDirectory then
        match walk lister (Path.join dir entry.name) with
        | .error e => [.skipped (Path.join dir entry.name) e]
        | .ok visits => visits
      else [])
-- What is listed has a bounded path, and the paths beneath it are longer.
termination_by Path.maxOctets + 1 - dir.octets
decreasing_by
  have hlisted := lister.octets_le _h
  have hlonger := Path.octets_lt_join dir entry.name
  omega

/-! ## What a visit yields -/

/-- The paths of the entries that a pattern matches at a visited directory. -/
def Visit.matched (pattern : Pattern) : Visit → List Text
  | .listed dir entries =>
    (entries.filter fun entry => pattern.matches entry.name.text).map fun entry =>
      Path.join dir entry.name
  | .skipped _ _ => []

/-- Why a search failed. -/
inductive SearchError
  | unlistable (dir : Text) (cause : IoError)
deriving DecidableEq

/-- The wording of an error, without its cause. -/
def SearchError.message : SearchError → Text
  | .unlistable dir _ => "failed to read directory `".toList ++ dir ++ "`".toList

/-- The part of the tools under which searches log. -/
def logTarget : Text := "buildutil::glob".toList

/-- What a visit logs. -/
def Visit.record : Visit → Log.Record
  | .listed dir entries =>
    ⟨.trace, logTarget,
      "globbing ".toList ++ Text.decimal entries.length ++ " entries in ".toList ++ dir⟩
  | .skipped dir cause =>
    ⟨.warn, logTarget,
      "skipping ".toList ++ dir ++ ": ".toList ++ (SearchError.unlistable dir cause).message⟩

/-! ## Searching -/

/-- The paths that a search found, in the order of the visits, and what it logged. -/
structure Found where
  paths : List Text
  records : List Log.Record

/-- What the visits of a search yield together. -/
def Found.ofVisits (pattern : Pattern) (visits : List Visit) : Found :=
  ⟨visits.flatMap (·.matched pattern), visits.map Visit.record⟩

/-- Searches beneath a root for the entries that a pattern matches, with a lister that is held to the
bound on paths. -/
def search (lister : Lister) (root : Text) (pattern : Pattern) : Except SearchError Found :=
  match walk lister.bounded root with
  | .error e => .error (.unlistable root e)
  | .ok visits => .ok (.ofVisits pattern visits)

end KernelTools.Wildcard

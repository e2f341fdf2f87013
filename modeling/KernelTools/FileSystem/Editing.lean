import KernelTools.FileSystem.Access

/-!
# Arranging a file system

The operations by which a file system is set up around the tools: making directories, files and
links, changing the contents of files, moving and removing entries, and taking an inventory.
Operations that name an entry, rather than what it leads to, do not follow a link at its end.

An operation may fail after its first effects: the directories that it made on the way stay.
-/

namespace KernelTools

/-- A change of a file system; one that fails leaves what it did up to then. -/
abbrev Rearrangement := EStateM IoError FileSystem Unit

namespace FileSystem

/-! ## A fresh start -/

/-- A file system with the null device and an empty working directory. -/
def fresh : FileSystem :=
  let dev : Location := [⟨"dev".toList, by decide⟩]
  let null : Location := ⟨"null".toList, by decide⟩ :: dev
  let work : Location := [⟨"work".toList, by decide⟩]
  let fs := ((empty.put dev .directory).put null .nullDevice).put work .directory
  { fs with workingDirectory := work }

/-! ## Entries -/

/-- A place for an entry: the directory that the steps of a path before the last lead to, and the
last step, if there is one. -/
structure Place where
  dir : Location
  last : Option Path.Step
deriving DecidableEq

/-- Finds the place that a path names, whether or not there is an entry in it. -/
def placeOf (fs : FileSystem) (path : Text) : Except IoError Place :=
  if '\x00' ∈ path then .error .invalidInput
  else if path = [] then .error .notFound
  else if Path.maxOctets < path.octets then .error .invalidFilename
  else
    let steps := Path.steps path
    match fs.resolve .use maxLinks (startOf fs.workingDirectory path) steps.dropLast true with
    | .error e => .error e
    | .ok (.absent _ _) => .error .notFound
    | .ok (.present dir _) => .ok ⟨dir, steps.getLast?⟩

/-- Looks what there is in a place, without following a link. -/
def lookUp (fs : FileSystem) (place : Place) : Except IoError Target :=
  fs.resolve .entry 0 place.dir place.last.toList false

/-- Stores a new node at a path that names nothing yet. -/
def create (path : Text) (node : Node) : Rearrangement := fun fs =>
  match fs.placeOf path with
  | .error e => .error e fs
  | .ok place =>
    match fs.lookUp place with
    | .error e => .error e fs
    | .ok (.present _ _) => .error .alreadyExists fs
    | .ok (.absent dir name) =>
      if Path.endsInSlash path ∧ node ≠ .directory then .error .notFound fs
      else .ok () (fs.put (name :: dir) node)

/-! ## Directories -/

/-- Whether a path leads to a directory. -/
def isDirectory (fs : FileSystem) (path : Text) : Bool :=
  match fs.locate .use path with
  | .ok (.present _ .directory) => true
  | _ => false

/-- Makes one directory, or leaves one that is there as it is. -/
def ensureDirectory (path : Text) : Rearrangement := fun fs =>
  match create path .directory fs with
  | .ok () fs' => .ok () fs'
  | .error e fs' => if fs'.isDirectory path then .ok () fs' else .error e fs'

/-- Makes a directory with all the directories above it that are missing. -/
def makeDirectories (path : Text) : Rearrangement := fun fs =>
  if path = [] then .ok () fs
  else
    match ensureDirectory path fs with
    | .error .notFound fs' => (Path.ancestors path ++ [path]).forM ensureDirectory fs'
    | outcome => outcome

/-- Makes the directories above a path that are missing. -/
def makeParents (path : Text) : Rearrangement :=
  match Path.parent? path with
  | none => pure ()
  | some parent => makeDirectories parent

/-! ## Files -/

/-- Replaces the contents of a file, making it and the directories above it when missing. -/
def write (path : Text) (contents : Bytes) : Rearrangement := do
  makeParents path
  fun fs =>
    match fs.openForWriting path with
    | .error e => .error e fs
    | .ok (.nullDevice, fs') => .ok () fs'
    | .ok (.file loc, fs') => .ok () (fs'.put loc (.file contents))

/-- Changes the contents of a file that is there; a device stays as it is. -/
def edit (path : Text) (change : Bytes → Bytes) : Rearrangement := fun fs =>
  match fs.locate .use path with
  | .error e => .error e fs
  | .ok (.absent _ _) => .error .notFound fs
  | .ok (.present loc (.file contents)) => .ok () (fs.put loc (.file (change contents)))
  | .ok (.present _ .nullDevice) => .ok () fs
  | .ok (.present _ .directory) => .error .isADirectory fs
  | .ok (.present _ (.link _)) => .error .filesystemLoop fs

/-- Adds octets at the end of a file. -/
def append (path : Text) (addition : Bytes) : Rearrangement :=
  edit path (· ++ addition)

/-- Sets the length of a file; a device has none to set. -/
def truncate (path : Text) (length : Nat) : Rearrangement := fun fs =>
  match fs.locate .use path with
  | .ok (.present _ .nullDevice) => .error .invalidInput fs
  | _ => edit path (resized length) fs

/-- Puts octets over a file from an offset on. -/
def poke (path : Text) (offset : Nat) (patch : Bytes) : Rearrangement :=
  edit path (overlaid offset patch)

/-! ## Links -/

/-- What keeps a text from being held by a symbolic link. -/
def linkConflict (target : Text) : Option IoError :=
  if target = [] then some .notFound
  else if Path.maxOctets < target.octets then some .invalidFilename
  else none

/-- Makes a symbolic link, and the directories above it that are missing. -/
def symlink (target path : Text) : Rearrangement := do
  makeParents path
  if '\x00' ∈ target ∨ '\x00' ∈ path then throw .invalidInput
  match linkConflict target with
  | some e => throw e
  | none => create path (.link target)

/-! ## Moving and removing -/

/-- What stands in the way of moving a node onto another. -/
def moveConflict (fs : FileSystem) (moved : Node) (loc : Location) : Node → Option IoError
  | .directory =>
    if moved ≠ .directory then some .isADirectory
    else if fs.children loc ≠ [] then some .directoryNotEmpty
    else none
  | _ => if moved = .directory then some .notADirectory else none

/-- Moves what there is in a place, with all it holds, to another place; a file or an empty directory
that lies there goes.  The flag tells whether one of the paths ends in a slash, which asks for a
directory. -/
def move (source dest : Place) (slash : Bool) : Rearrangement := fun fs =>
  match fs.lookUp source, fs.lookUp dest with
  | .error e, _ => .error e fs
  | .ok (.absent _ _), _ => .error .notFound fs
  | .ok _, .error e => .error e fs
  | .ok (.present sourceLoc node), .ok target =>
    let destLoc : Location := match target with
      | .present loc _ => loc
      | .absent dir name => name :: dir
    if node ≠ .directory ∧ slash then .error .notADirectory fs
    else if destLoc = sourceLoc then .ok () fs
    else if destLoc.isWithin sourceLoc then .error .invalidInput fs
    else if sourceLoc.isWithin destLoc then .error .directoryNotEmpty fs
    else
      match target with
      | .absent _ _ => .ok () (fs.relocate sourceLoc destLoc)
      | .present loc occupant =>
        match fs.moveConflict node loc occupant with
        | some e => .error e fs
        | none => .ok () (fs.relocate sourceLoc destLoc)

/-- Moves an entry, with all it holds, to another name or directory. -/
def rename (source dest : Text) : Rearrangement := fun fs =>
  if '\x00' ∈ source ∨ '\x00' ∈ dest then .error .invalidInput fs
  else
    match fs.placeOf source, fs.placeOf dest with
    | .error e, _ => .error e fs
    | .ok _, .error e => .error e fs
    | .ok sourcePlace, .ok destPlace =>
      move sourcePlace destPlace (Path.endsInSlash source || Path.endsInSlash dest) fs

/-- Removes a file or a link, or a directory with all it holds. -/
def removeAll (path : Text) : Rearrangement := fun fs =>
  match fs.locate .entry path with
  | .error e => .error e fs
  | .ok (.absent _ _) => .error .notFound fs
  | .ok (.present loc _) => .ok () (fs.remove loc)

/-! ## Inventory -/

/-- The path of a location relative to a directory above it. -/
def relativePath (top loc : Location) : Text :=
  ['/'].intercalate ((loc.take (loc.length - top.length)).reverse.map Name.text)

/-- How an inventory shows an entry: a directory by a slash, a link by an at sign, and a file by its
length. -/
def inventoryLine (path : Text) : Node → Text
  | .directory => path ++ "/".toList
  | .link _ => path ++ "@".toList
  | .file contents => path ++ " ".toList ++ Text.decimal contents.length
  | .nullDevice => path ++ " 0".toList

/-- Everything beneath the working directory, one line each, in the order of the lines' octets. -/
def inventory (fs : FileSystem) : List Text :=
  let top := fs.workingDirectory
  let beneath := fs.entries.filter fun entry => entry.1.isWithin top && !decide (entry.1 = top)
  let lines := beneath.map fun entry => inventoryLine (relativePath top entry.1) entry.2
  lines.mergeSort fun a b => decide (a.utf8 ≤ b.utf8)

end FileSystem

end KernelTools

import KernelTools.FileSystem.Resolution

/-!
# Reading, writing and listing

The accesses that the tools make: reading a file whole, opening a file for writing, replacing the
contents of an open file, and listing a directory.  A file that was opened for writing is known by
its location from then on, whatever path led there, so two paths to one file give equal handles.

Main results:

- Theorem {lit}`overwrite_of_file`: overwriting a file leaves exactly what was written.
-/

namespace KernelTools.FileSystem

/-! ## Reading -/

/-- The contents of the file that a path leads to. -/
def read (fs : FileSystem) (path : Text) : Except IoError Bytes :=
  match fs.locate .use path with
  | .error e => .error e
  | .ok (.absent _ _) => .error .notFound
  | .ok (.present _ (.file contents)) => .ok contents
  | .ok (.present _ .nullDevice) => .ok []
  | .ok (.present _ .directory) => .error .isADirectory
  | .ok (.present _ (.link _)) => .error .filesystemLoop

/-- Whether a path leads to something that is there. -/
def isPresent (fs : FileSystem) (path : Text) : Bool :=
  match fs.locate .use path with
  | .ok (.present _ _) => true
  | _ => false

/-! ## Writing -/

/-- A file opened for writing. -/
inductive Handle
  | file (loc : Location)
  | nullDevice
deriving DecidableEq

/-- Opens the file that a path leads to for writing and keeps its contents; makes an empty file
when there is none. -/
def openForWriting (fs : FileSystem) (path : Text) : Except IoError (Handle × FileSystem) :=
  match fs.locate .create path with
  | .error e => .error e
  | .ok (.absent dir name) => .ok (.file (name :: dir), fs.put (name :: dir) (.file []))
  | .ok (.present loc (.file _)) => .ok (.file loc, fs)
  | .ok (.present _ .nullDevice) => .ok (.nullDevice, fs)
  | .ok (.present _ .directory) => .error .isADirectory
  | .ok (.present _ (.link _)) => .error .filesystemLoop

/-- Cuts or fills contents with zeros to a length. -/
def resized (length : Nat) (contents : Bytes) : Bytes :=
  contents.take length ++ List.replicate (length - contents.length) 0

@[simp]
theorem resized_zero (contents : Bytes) : resized 0 contents = [] := by
  simp [resized]

/-- Puts octets over contents from an offset on, with zeros up to the offset where needed. -/
def overlaid (offset : Nat) (patch contents : Bytes) : Bytes :=
  if patch = [] then contents
  else resized offset contents ++ patch ++ contents.drop (offset + patch.length)

/-- Octets put over nothing are all there is. -/
@[simp]
theorem overlaid_zero_nil (patch : Bytes) : overlaid 0 patch [] = patch := by
  by_cases h : patch = [] <;> simp [overlaid, h]

/-- Changes the contents of the file at a location, if one lies there. -/
def modify (fs : FileSystem) (loc : Location) (change : Bytes → Bytes) : FileSystem :=
  match fs.nodeAt loc with
  | some (.file contents) => fs.put loc (.file (change contents))
  | _ => fs

/-- Sets the length of an open file; a device has none to set. -/
def setLength (fs : FileSystem) (handle : Handle) (length : Nat) : Except IoError FileSystem :=
  match handle with
  | .file loc => .ok (fs.modify loc (resized length))
  | .nullDevice => .error .invalidInput

/-- Puts octets over an open file from an offset on; a device swallows them. -/
def writeAt (fs : FileSystem) (handle : Handle) (offset : Nat) (octets : Bytes) : FileSystem :=
  match handle with
  | .file loc => fs.modify loc (overlaid offset octets)
  | .nullDevice => fs

/-- Replaces the contents of an open file: empties it and then writes from its start. -/
def overwrite (fs : FileSystem) (handle : Handle) (contents : Bytes) : Except IoError FileSystem :=
  match fs.setLength handle 0 with
  | .error e => .error e
  | .ok emptied => .ok (emptied.writeAt handle 0 contents)

/-- Overwriting a file leaves exactly what was written, whatever the file held. -/
theorem overwrite_of_file {fs : FileSystem} {loc : Location} {old : Bytes}
    (h : fs.nodeAt loc = some (.file old)) (contents : Bytes) :
    fs.overwrite (.file loc) contents = .ok (fs.put loc (.file contents)) := by
  cases loc with
  | nil => simp at h
  | cons name dir =>
    have hemptied : (fs.put (name :: dir) (.file [])).nodeAt (name :: dir) = some (.file []) := by
      rw [nodeAt_put, if_pos rfl]
    simp [overwrite, setLength, writeAt, modify, h, hemptied]

/-! ## Listing -/

/-- An entry as a directory lists it. -/
structure Entry where
  name : Name
  /-- Whether the entry is a directory itself; a link to one is not. -/
  isDirectory : Bool
deriving DecidableEq

/-- The entries of the directory that a path leads to, in no particular order. -/
def list (fs : FileSystem) (path : Text) : Except IoError (List Entry) :=
  match fs.locate .use path with
  | .error e => .error e
  | .ok (.absent _ _) => .error .notFound
  | .ok (.present loc .directory) =>
    .ok ((fs.children loc).map fun (name, node) => ⟨name, decide (node = .directory)⟩)
  | .ok (.present _ _) => .error .notADirectory

end KernelTools.FileSystem

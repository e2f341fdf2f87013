import KernelTools.CommandLine.Reading
import KernelTools.Report

/-!
# The program

The outer layer.  It takes a picture of the parts of the disk that a command can touch, runs the
command on the picture, carries the files that the run changed back to the disk, and prints what the
run has to say.

The picture holds a link under the real path of what it leads to.  What cannot be looked at, such as
the target of a broken link, is not in the picture.
-/

namespace KernelTools.Disk

/-! ## Taking a picture -/

/-- The path of a location on the disk. -/
def pathOf (loc : Location) : String :=
  String.ofList ('/' :: ['/'].intercalate (loc.reverse.map Name.text))

/-- Adds what lies on the way of some steps from a directory to a picture. -/
partial def observe (fs : FileSystem) (dir : Location) : List Path.Step → IO FileSystem
  | [] => return fs
  | .here :: rest => observe fs dir rest
  | .up :: rest => observe fs dir.tail rest
  | .overlong :: _ => return fs
  | .down name :: rest => do
    let loc := name :: dir
    let path := (← IO.FS.realPath "/") / pathOf loc
    match ← path.symlinkMetadata.toBaseIO with
    | .error _ => return fs
    | .ok data =>
      match data.type with
      | .dir => observe (fs.put loc .directory) loc rest
      | .file =>
        if rest.isEmpty then
          return fs.put loc (.file (← IO.FS.readBinFile path).toList)
        else return fs.put loc (.file [])
      | .symlink =>
        match ← (IO.FS.realPath path).toBaseIO with
        | .error _ => return fs
        | .ok real =>
          let target := real.toString.toList
          observe (fs.put loc (.link target)) [] (Path.steps target ++ rest)
      | .other => return fs.put loc .nullDevice

/-- Adds everything beneath a directory to a picture; contents of files are left out. -/
partial def observeBeneath (fs : FileSystem) (dir : Location) : IO FileSystem := do
  match ← (IO.FS.realPath (pathOf dir) >>= (·.readDir)).toBaseIO with
  | .error _ => return fs
  | .ok entries =>
    entries.foldlM (fun fs entry => do
      let text := entry.fileName.toList
      if h : IsName text then
        let loc := ⟨text, h⟩ :: dir
        match (← entry.path.symlinkMetadata).type with
        | .dir => observeBeneath (fs.put loc .directory) loc
        | .file => return fs.put loc (.file [])
        | .symlink => return fs.put loc (.link [])
        | .other => return fs.put loc .nullDevice
      else return fs) fs

/-- Adds what lies on the way of a path to a picture. -/
def observePath (fs : FileSystem) (path : Text) : IO FileSystem :=
  observe fs (FileSystem.startOf fs.workingDirectory path) (Path.steps path)

/-- The picture of the way to the working directory. -/
def surroundings : IO FileSystem := do
  let steps := Path.steps (← IO.currentDir).toString.toList
  let fs ← observe .empty [] steps
  let dir := steps.reverse.filterMap fun
    | .down name => some name
    | _ => none
  return { fs with workingDirectory := dir }

/-- The picture that a run with some options needs. -/
def picture (options : CommandLine.Options) : IO FileSystem := do
  let fs ← surroundings
  match options.command with
  | .size _ => return fs
  | .glob _ root _ =>
    let fs ← observePath fs root
    match fs.locate .use root with
    | .ok (.present dir .directory) => observeBeneath fs dir
    | _ => return fs
  | .isrs source inclusion _ =>
    let fs ← observePath fs (options.config.getD Config.defaultPath)
    match Config.load fs options.config with
    | .error _ => return fs
    | .ok loaded =>
      let fs ← observePath fs (choosePath source loaded.config.source defaultSource)
      observePath fs (choosePath inclusion loaded.config.inclusion defaultInclusion)

/-! ## Carrying changes back -/

/-- Writes the files in which two pictures differ to the disk. -/
def store (before after : FileSystem) : IO Unit :=
  after.entries.forM fun (loc, node) =>
    match node with
    | .file contents =>
      if before.nodeAt loc = some node then pure ()
      else IO.FS.writeBinFile (pathOf loc) contents.toByteArray
    | _ => pure ()

end KernelTools.Disk

open KernelTools in
/-- Runs the program on the words of its command line. -/
def main (words : List String) : IO UInt32 := do
  match CommandLine.read (words.map String.toList) with
  | .error refusal =>
    let stream ← if refusal.exitCode = 0 then IO.getStdout else IO.getStderr
    stream.putStr (String.ofList (refusalText refusal))
    return refusal.exitCode.toUInt32
  | .ok options =>
    let before ← Disk.picture options
    let outcome := run before options
    Disk.store before outcome.fs
    (← IO.getStdout).putStr (String.ofList outcome.outputText)
    (← IO.getStderr).putStr (String.ofList (errorText options outcome))
    return outcome.exitCode.toUInt32

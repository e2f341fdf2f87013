import KernelTools.FileSystem.Access
import KernelTools.Log
import KernelTools.Text.Quoted
import KernelTools.Toml.Document

/-!
# Configuration

The configuration names the paths of the generated files.  It is a TOML document whose only table is
{lit}`isrs` with the keys {lit}`source` and {lit}`include`; everything is optional and nothing else is
allowed.  Instead of a table, {lit}`isrs` may be an array that gives the two paths by position.

A configuration file is looked for and read under the path that is given for it.  The tools put the
path of the working directory in front; that leads to the same file, as {lit}`readText_anchored` says,
unless it makes the path longer than a path may be, and it is taken not to.
-/

namespace KernelTools

/-- The paths that a configuration sets. -/
structure Config where
  source : Option Text
  inclusion : Option Text
deriving DecidableEq

namespace Config

open Toml (Table Value)

/-- The configuration that sets nothing. -/
def empty : Config :=
  ⟨none, none⟩

/-! ## From documents -/

/-- Reads an optional string: nothing is unset, a string is set, anything else is refused. -/
def ofOptional? : Option Value → Option (Option Text)
  | none => some none
  | some (.string s) => some (some s)
  | some _ => none

/-- Reads the keys of the table {lit}`isrs`. -/
def ofEntries? (entries : Table) : Option Config :=
  if entries.all fun entry => entry.1 = "source".toList ∨ entry.1 = "include".toList then
    match ofOptional? (entries.get? "source".toList),
        ofOptional? (entries.get? "include".toList) with
    | some source, some inclusion => some ⟨source, inclusion⟩
    | _, _ => none
  else none

/-- Reads the value of {lit}`isrs`: a table, or an array whose first two items are the paths. -/
def ofValue? : Value → Option Config
  | .table _ entries => ofEntries? entries
  | .array items =>
    match ofOptional? items[0]?, ofOptional? items[1]? with
    | some source, some inclusion => some ⟨source, inclusion⟩
    | _, _ => none
  | _ => none

/-- Reads a whole document. -/
def ofTable? (top : Table) : Option Config :=
  if top.all fun entry => entry.1 = "isrs".toList then
    match top.get? "isrs".toList with
    | none => some empty
    | some value => ofValue? value
  else none

/-- Reads the text of a configuration file. -/
def parse (contents : Text) : Option Config :=
  (Toml.readDocument contents).bind ofTable?

/-! ## Showing a configuration -/

/-- How an optional path is shown. -/
def shownOptional : Option Text → Text
  | none => "None".toList
  | some path => "Some(".toList ++ path.quoted ++ ")".toList

/-- How a configuration is shown. -/
def shown (c : Config) : Text :=
  "Config \x7b isrs: IsrsConfig \x7b source: ".toList ++ shownOptional c.source ++
    ", include: ".toList ++ shownOptional c.inclusion ++ " \x7d \x7d".toList

/-! ## Loading -/

/-- The configuration file that is used when none is named. -/
def defaultPath : Text := "xtask.toml".toList

/-- Why a configuration could not be loaded; each cause names the file. -/
inductive LoadError
  /-- The file cannot be read, or is not UTF-8. -/
  | unreadable (path : Text)
  /-- The text is no document, or the document no configuration. -/
  | malformed (path : Text)
deriving DecidableEq

/-- The wording of an error, without its cause. -/
def LoadError.message : LoadError → Text
  | .unreadable path => "failed reading config `".toList ++ path ++ "`".toList
  | .malformed path => "failed parsing config `".toList ++ path ++ "`".toList

/-- The text of the file that a path leads to from the working directory; {lean}`none` when it cannot
be read as text. -/
def readText (fs : FileSystem) (path : Text) : Option Text :=
  match fs.read path with
  | .ok contents => Text.ofUtf8? contents
  | .error _ => none

/-- Loads a configuration from a certain file. -/
def loadFrom (fs : FileSystem) (path : Text) : Except LoadError Config :=
  match readText fs path with
  | none => .error (.unreadable path)
  | some contents =>
    match parse contents with
    | none => .error (.malformed path)
    | some config => .ok config

/-- The file that the configuration is read from: the one that is named, or else the default one if
it is there, in the working directory. -/
def chosenPath (fs : FileSystem) (named : Option Text) : Option Text :=
  match named with
  | some path => some path
  | none => if fs.isPresent defaultPath then some defaultPath else none

/-- The part of the tools under which loading logs. -/
def logTarget : Text := "xtask::config".toList

/-- A loaded configuration with what loading logged. -/
structure Loaded where
  config : Config
  records : List Log.Record

/-- Loads the configuration that applies. -/
def load (fs : FileSystem) (named : Option Text) : Except LoadError Loaded :=
  match chosenPath fs named with
  | none =>
    .ok ⟨empty, [⟨.debug, logTarget,
      "no ".toList ++ defaultPath ++ " found, using defaults".toList⟩]⟩
  | some path =>
    match loadFrom fs path with
    | .error e => .error e
    | .ok config =>
      .ok ⟨config, [⟨.debug, logTarget,
        "loaded config from ".toList ++ path ++ ": ".toList ++ config.shown⟩]⟩

end Config

end KernelTools

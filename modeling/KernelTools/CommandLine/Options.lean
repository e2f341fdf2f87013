import KernelTools.Text

/-!
# Options of the command line

What a command line asks for, once it is understood, and why one is refused.

The flags form one table: which of them a command knows, how they are spelled, and whether a value
belongs to them.
-/

namespace KernelTools.CommandLine

/-! ## What is asked for -/

/-- What to do, with the settings that concern it. -/
inductive Command
  /-- Generate the interrupt tables, or only check them. -/
  | isrs (source inclusion : Option Text) (check : Bool)
  /-- Convert sizes to byte counts. -/
  | size (sizes : List Text)
  /-- List the entries beneath a directory that a pattern matches. -/
  | glob (pattern root : Text) (first : Option Text)
deriving DecidableEq

/-- All settings of a run. -/
structure Options where
  verbosity : Nat
  quiet : Bool
  config : Option Text
  command : Command
deriving DecidableEq

/-- Why a command line is refused, or answered with help instead of a run. -/
inductive Refusal
  /-- Help is asked for. -/
  | helpRequested
  /-- Nothing is asked for, so help is shown. -/
  | nothingGiven
  | missingCommand
  | unknownCommand
  | unknownArgument
  | missingOperand
  | invalidValue
  | conflict
  | tooManyValues
deriving DecidableEq

/-- The exit code that goes with a refusal. -/
def Refusal.exitCode : Refusal → Nat
  | .helpRequested => 0
  | _ => 2

/-! ## Commands by name -/

/-- The commands without their settings. -/
inductive CommandName
  | isrs
  | size
  | glob
deriving DecidableEq

/-- How a command is spelled. -/
def CommandName.text : CommandName → Text
  | .isrs => "isrs".toList
  | .size => "size".toList
  | .glob => "glob".toList

/-- All commands. -/
def CommandName.all : List CommandName :=
  [.isrs, .size, .glob]

/-- The command that a word names. -/
def CommandName.ofText? (word : Text) : Option CommandName :=
  all.find? fun command => command.text = word

/-- How help is asked for in place of a command. -/
def helpWord : Text := "help".toList

/-- Whether a command takes one more operand than it has. -/
def CommandName.takesAnother : CommandName → (operands : Nat) → Bool
  | .isrs, _ => false
  | .size, _ => true
  | .glob, operands => operands == 0

/-! ## Flags -/

/-- The flags of the command line. -/
inductive Flag
  | verbose
  | quiet
  | config
  | help
  | source
  | inclusion
  | check
  | root
  | first
deriving DecidableEq

namespace Flag

/-- How a flag is spelled behind two dashes. -/
def longName : Flag → Text
  | .verbose => "verbose".toList
  | .quiet => "quiet".toList
  | .config => "config".toList
  | .help => "help".toList
  | .source => "source".toList
  | .inclusion => "include".toList
  | .check => "check".toList
  | .root => "root".toList
  | .first => "first".toList

/-- The flag of a letter behind one dash. -/
def ofLetter? (c : Char) : Option Flag :=
  if c = 'v' then some .verbose
  else if c = 'q' then some .quiet
  else if c = 'h' then some .help
  else none

/-- Whether a value belongs to a flag. -/
def takesValue : Flag → Bool
  | .config | .source | .inclusion | .root | .first => true
  | _ => false

/-- Whether the value of a flag may be empty; a path may not. -/
def allowsEmpty : Flag → Bool
  | .first => true
  | _ => false

/-- The flags that may stand before and after the command. -/
def global : List Flag :=
  [.verbose, .quiet, .config, .help]

/-- The flags known behind a command, or before any. -/
def known : Option CommandName → List Flag
  | none => global
  | some .isrs => global ++ [.source, .inclusion, .check]
  | some .size => global
  | some .glob => global ++ [.root, .first]

/-- The flag known at a place under a long name. -/
def ofLong? (place : Option CommandName) (name : Text) : Option Flag :=
  (known place).find? fun flag => flag.longName = name

end Flag

/-! ## Defaults -/

/-- The directory that is searched when none is given. -/
def defaultRoot : Text := ".".toList

/-- The highest verbosity that is counted. -/
def maxVerbosity : Nat := 255

end KernelTools.CommandLine

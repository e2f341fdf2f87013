import KernelTools.Run

/-!
# Reporting an outcome

What a finished run writes to the two output streams: its lines to the one, and the records that are
shown, followed by the failure with its causes, to the other.  A single cause is indented under a
heading; several are numbered.  A command line that is refused is answered with the reason and a
summary of the usage.
-/

namespace KernelTools

/-! ## Wording of causes -/

/-- What the operating system says about an error. -/
def IoError.message : IoError → Text
  | .notFound => "No such file or directory (os error 2)".toList
  | .notADirectory => "Not a directory (os error 20)".toList
  | .isADirectory => "Is a directory (os error 21)".toList
  | .invalidInput => "Invalid argument (os error 22)".toList
  | .invalidFilename => "File name too long (os error 36)".toList
  | .filesystemLoop => "Too many levels of symbolic links (os error 40)".toList
  | .alreadyExists => "File exists (os error 17)".toList
  | .directoryNotEmpty => "Directory not empty (os error 39)".toList

/-- The wording of a cause. -/
def Cause.text : Cause → Text
  | .message text => text
  | .io path error =>
    if '\x00' ∈ path then "file name contained an unexpected NUL byte".toList else error.message
  | .unreadableText => "the file cannot be read as text".toList
  | .malformedToml => "the text is no valid configuration".toList

/-! ## Layout -/

/-- A text whose further lines are indented. -/
def indented (width : Nat) (t : Text) : Text :=
  t.flatMap fun c => if c = '\n' then c :: List.replicate width ' ' else [c]

/-- A number, filled up with blanks on the left. -/
def padded (width n : Nat) : Text :=
  let digits := Text.decimal n
  List.replicate (width - digits.length) ' ' ++ digits

/-- The causes behind a failure, under their heading. -/
def causesText : List Text → Text
  | [] => []
  | [cause] => "\n\nCaused by:\n    ".toList ++ indented 4 cause
  | causes =>
    "\n\nCaused by:".toList ++ causes.zipIdx.flatMap fun (cause, n) =>
      '\n' :: padded 5 n ++ ": ".toList ++ indented 7 cause

/-- A failure with its causes. -/
def failureText (chain : List Cause) : Text :=
  match chain.map Cause.text with
  | [] => []
  | outermost :: causes => "Error: ".toList ++ outermost ++ causesText causes

/-! ## Streams -/

/-- What a run writes to its standard output. -/
def Outcome.outputText (o : Outcome) : Text :=
  Text.ofLines o.lines

/-- The log of a run as its options show it. -/
def logText (options : CommandLine.Options) (o : Outcome) : Text :=
  Text.ofLines ((shownRecords options o).map Log.Record.line)

/-- What a run writes to its standard error. -/
def errorText (options : CommandLine.Options) (o : Outcome) : Text :=
  logText options o ++
    match o.failure with
    | none => []
    | some failure => failureText failure.chain ++ ['\n']

/-! ## Refused command lines -/

/-- How the program is called. -/
def usageText : Text :=
  Text.ofLines (["Usage:",
    "  isrs [--source PATH] [--include PATH] [--check]",
    "  size SIZE...",
    "  glob PATTERN [--root PATH] [--first NAME]",
    "Options of every command: -v, -q, --config PATH, -h"].map String.toList)

/-- Why a command line is refused; help needs no reason. -/
def refusalReason : CommandLine.Refusal → Option Text
  | .helpRequested | .nothingGiven => none
  | .missingCommand => some "a command is required".toList
  | .unknownCommand => some "there is no such command".toList
  | .unknownArgument => some "unexpected argument".toList
  | .missingOperand => some "an operand is missing".toList
  | .invalidValue => some "an option lacks its value".toList
  | .conflict => some "options cannot be used together or twice".toList
  | .tooManyValues => some "an option takes no value".toList

/-- What is said about a refused command line. -/
def refusalText (refusal : CommandLine.Refusal) : Text :=
  match refusalReason refusal with
  | none => usageText
  | some reason => "error: ".toList ++ reason ++ "\n\n".toList ++ usageText

end KernelTools

import KernelTools.CommandLine.Options

/-!
# Reading a command line

Words are read from left to right.  Flags before the command and flags behind it are collected on
two sides; each side is judged when it ends, the side behind the command first.

A value that is a word of its own waits until the next word has been understood before it is taken
in.  So when a waiting value is faulty and the next word is unknown, the command line is refused for
the unknown word.
-/

namespace KernelTools.CommandLine

/-! ## Words -/

/-- What a word looks like. -/
inductive Word
  /-- Two dashes: only operands follow. -/
  | separator
  /-- A long flag, with what stands behind its first equals sign. -/
  | long (name : Text) (value : Option Text)
  /-- Letters behind one dash. -/
  | short (letters : Text)
  | plain
deriving DecidableEq

/-- Splits a long flag at its first equals sign. -/
def splitAtEquals (t : Text) : Text × Option Text :=
  match t.dropWhile (· != '=') with
  | [] => (t, none)
  | _ :: value => (t.takeWhile (· != '='), some value)

/-- What a text looks like as a word. -/
def Word.ofText : Text → Word
  | ['-', '-'] => .separator
  | '-' :: '-' :: rest =>
    let (name, value) := splitAtEquals rest
    .long name value
  | '-' :: c :: rest => .short (c :: rest)
  | _ => .plain

/-! ## One side of the command -/

/-- What has been given on one side of the command. -/
structure Side where
  verbosity : Nat := 0
  quiet : Bool := false
  check : Bool := false
  values : List (Flag × Text) := []
  operands : List Text := []
  /-- A flag whose value has not been taken in, with the value if it has been read. -/
  waiting : Option (Flag × Option Text) := none
  /-- Whether only operands follow. -/
  operandsOnly : Bool := false

namespace Side

/-- The value of a flag. -/
def value? (s : Side) (flag : Flag) : Option Text :=
  s.values.lookup flag

/-- Takes in the value of a flag. -/
def setValue (s : Side) (flag : Flag) (value : Text) : Except Refusal Side :=
  if (s.value? flag).isSome then .error .conflict
  else if value = [] ∧ flag.allowsEmpty = false then .error .invalidValue
  else .ok { s with values := s.values ++ [(flag, value)] }

/-- Takes in the value that waits. -/
def settle (s : Side) : Except Refusal Side :=
  match s.waiting with
  | none => .ok s
  | some (_, none) => .error .invalidValue
  | some (flag, some value) => { s with waiting := none }.setValue flag value

/-- Takes in a flag that has no value. -/
def setFlag (s : Side) (flag : Flag) : Except Refusal Side :=
  match s.settle with
  | .error e => .error e
  | .ok s =>
    match flag with
    | .verbose => .ok { s with verbosity := min (s.verbosity + 1) maxVerbosity }
    | .quiet => if s.quiet then .error .conflict else .ok { s with quiet := true }
    | .check => if s.check then .error .conflict else .ok { s with check := true }
    | _ => .error .helpRequested

/-- Takes in a long flag. -/
def takeLong (s : Side) (place : Option CommandName) (name : Text) (value : Option Text) :
    Except Refusal Side :=
  match Flag.ofLong? place name with
  | none => .error .unknownArgument
  | some flag =>
    if flag.takesValue then
      match s.settle, value with
      | .error e, _ => .error e
      | .ok s, some value => s.setValue flag value
      | .ok s, none => .ok { s with waiting := some (flag, none) }
    else if value.isSome then .error .tooManyValues
    else s.setFlag flag

/-- Takes in letters behind one dash, one after the other. -/
def takeShort (s : Side) : Text → Except Refusal Side
  | [] => .ok s
  | c :: letters =>
    match Flag.ofLetter? c with
    | none => .error .unknownArgument
    | some flag =>
      match s.setFlag flag with
      | .error e => .error e
      | .ok s => s.takeShort letters

/-- Takes in a word that is a flag, a value or the separator; {lean}`none` for any other word. -/
def take? (s : Side) (place : Option CommandName) (word : Text) : Option (Except Refusal Side) :=
  if s.operandsOnly then none
  else
    match Word.ofText word with
    | .separator => some (.ok { s with operandsOnly := true })
    | .long name value => some (s.takeLong place name value)
    | .short letters => some (s.takeShort letters)
    | .plain =>
      match s.waiting with
      | some (flag, none) => some (.ok { s with waiting := some (flag, some word) })
      | _ => none

/-- Takes in an operand of a command. -/
def takeOperand (s : Side) (command : CommandName) (word : Text) : Except Refusal Side :=
  if command.takesAnother s.operands.length then
    match s.settle with
    | .error e => .error e
    | .ok s => .ok { s with operands := s.operands ++ [word] }
  else .error .unknownArgument

/-- Ends a side: the last value is taken in, and quiet excludes verbose. -/
def close (s : Side) : Except Refusal Side :=
  match s.settle with
  | .error e => .error e
  | .ok s => if s.quiet ∧ s.verbosity ≠ 0 then .error .conflict else .ok s

end Side

/-! ## Behind the command -/

/-- Takes in one word behind a command. -/
def takeWord (command : CommandName) (s : Side) (word : Text) : Except Refusal Side :=
  match s.take? (some command) word with
  | some outcome => outcome
  | none => s.takeOperand command word

/-- Takes in the words behind a command. -/
def takeWords (command : CommandName) (s : Side) : List Text → Except Refusal Side
  | [] => .ok s
  | word :: words =>
    match takeWord command s word with
    | .error e => .error e
    | .ok s => takeWords command s words

/-- The settings of a command. -/
def commandOf (command : CommandName) (s : Side) : Except Refusal Command :=
  match command with
  | .isrs => .ok (.isrs (s.value? .source) (s.value? .inclusion) s.check)
  | .size => if s.operands = [] then .error .missingOperand else .ok (.size s.operands)
  | .glob =>
    match s.operands with
    | [] => .error .missingOperand
    | pattern :: _ => .ok (.glob pattern ((s.value? .root).getD defaultRoot) (s.value? .first))

/-- Puts both sides together; a global flag counts from behind the command if it is given there. -/
def combine (before behind : Side) (command : Command) : Options where
  verbosity := if behind.verbosity = 0 then before.verbosity else behind.verbosity
  quiet := before.quiet || behind.quiet
  config := (behind.value? .config).or (before.value? .config)
  command := command

/-- Reads the words behind a command and puts both sides together. -/
def readCommand (before : Side) (command : CommandName) (words : List Text) :
    Except Refusal Options :=
  match takeWords command {} words with
  | .error e => .error e
  | .ok behind =>
    match behind.close with
    | .error e => .error e
    | .ok behind =>
      match commandOf command behind with
      | .error e => .error e
      | .ok settings =>
        match before.close with
        | .error e => .error e
        | .ok before => .ok (combine before behind settings)

/-! ## Before the command -/

/-- Answers a request for help about the words that follow. -/
def helpAbout : List Text → Refusal
  | [] => .helpRequested
  | [word] =>
    if (CommandName.ofText? word).isSome ∨ word = helpWord then .helpRequested else .unknownCommand
  | _ => .unknownCommand

/-- Ends a command line that names no command. -/
def withoutCommand (before : Side) : Refusal :=
  match before.settle with
  | .error e => e
  | .ok s =>
    if s.verbosity = 0 ∧ s.quiet = false ∧ s.values = [] then .nothingGiven else .missingCommand

/-- Reads the words from the front on, with what has been given so far. -/
def readWords (before : Side) : List Text → Except Refusal Options
  | [] => .error (withoutCommand before)
  | word :: words =>
    match before.take? none word with
    | some (.error e) => .error e
    | some (.ok before) => readWords before words
    | none =>
      match CommandName.ofText? word with
      | some command =>
        if before.operandsOnly then .error .unknownArgument
        else readCommand before command words
      | none =>
        if word ≠ helpWord then .error .unknownCommand
        else if before.operandsOnly then .error .unknownArgument
        else .error (helpAbout words)

/-- Reads a command line. -/
def read (words : List Text) : Except Refusal Options :=
  readWords {} words

end KernelTools.CommandLine

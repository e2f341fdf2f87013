import KernelTools.Toml.Trivia

/-!
# Quoted strings

The four ways to quote a TOML string: basic strings with escapes between double quotes, literal
strings between single quotes, and the multi-line form of each between three quotes.  In a
multi-line string a line end right after the opening quotes is dropped, every other line end reads
as a line feed, and up to two quotes may stand directly before the closing three.

Each reading function starts behind the opening quotes and returns the string with what is left
behind the closing quotes.
-/

namespace KernelTools.Toml

/-! ## Escapes -/

/-- The character that a backslash and one letter stand for. -/
def simpleEscape? (c : Char) : Option Char :=
  if c = 'b' then some '\x08'
  else if c = 't' then some '\t'
  else if c = 'n' then some '\n'
  else if c = 'f' then some '\x0c'
  else if c = 'r' then some '\r'
  else if c = '"' then some '"'
  else if c = '\\' then some '\\'
  else none

/-- The value of a hexadecimal digit in either case. -/
def hexDigit? (c : Char) : Option Nat :=
  if '0' ≤ c ∧ c ≤ '9' then some (c.toNat - '0'.toNat)
  else if 'a' ≤ c ∧ c ≤ 'f' then some (c.toNat - 'a'.toNat + 10)
  else if 'A' ≤ c ∧ c ≤ 'F' then some (c.toNat - 'A'.toNat + 10)
  else none

/-- The character with a code point, unless the number is none. -/
def scalar? (n : Nat) : Option Char :=
  if n.isValidChar then some (Char.ofNat n) else none

/-- What the next character of a basic string belongs to. -/
inductive EscapeState
  /-- To the string itself. -/
  | plain
  /-- To an escape, right behind its backslash. -/
  | escaped
  /-- To the digits of an escape: so many are still to come, and the digits so far have this value. -/
  | hex (left value : Nat)
  /-- To the blanks between a backslash and the line end that it hides. -/
  | hiding
  /-- To the blanks and line ends that follow a hidden line end. -/
  | hidden
deriving DecidableEq

/-- Puts a character in front of a string that was read. -/
def push (c : Char) (read : Option (Text × Text)) : Option (Text × Text) :=
  read.map fun (string, rest) => (c :: string, rest)

/-! ## One line -/

/-- Reads a basic string. -/
def readBasic : EscapeState → Text → Option (Text × Text)
  | .plain, c :: rest =>
    if c = '"' then some ([], rest)
    else if c = '\\' then readBasic .escaped rest
    else if isPlain c then push c (readBasic .plain rest)
    else none
  | .escaped, c :: rest =>
    if c = 'u' then readBasic (.hex 3 0) rest
    else if c = 'U' then readBasic (.hex 7 0) rest
    else
      match simpleEscape? c with
      | some d => push d (readBasic .plain rest)
      | none => none
  | .hex left value, c :: rest =>
    match hexDigit? c with
    | none => none
    | some d =>
      match left with
      | 0 =>
        match scalar? (value * 16 + d) with
        | some e => push e (readBasic .plain rest)
        | none => none
      | left + 1 => readBasic (.hex left (value * 16 + d)) rest
  | _, _ => none

/-- Reads a literal string. -/
def readLiteral : Text → Option (Text × Text)
  | [] => none
  | c :: rest =>
    if c = '\'' then some ([], rest)
    else if isPlain c then push c (readLiteral rest)
    else none

/-! ## Several lines -/

/-- Closes a multi-line string behind its first three closing quotes: up to two more quotes in front
of them belong to the string. -/
def closeMultiline (quote : Char) : Text → Text × Text
  | a :: b :: rest =>
    if a = quote ∧ b = quote then ([quote, quote], rest)
    else if a = quote then ([quote], b :: rest)
    else ([], a :: b :: rest)
  | [a] => if a = quote then ([quote], []) else ([], [a])
  | [] => ([], [])

/-- Reads a multi-line basic string. -/
def readMultilineBasic : EscapeState → Text → Option (Text × Text)
  | .plain, '"' :: '"' :: '"' :: rest | .hidden, '"' :: '"' :: '"' :: rest =>
    some (closeMultiline '"' rest)
  | .plain, '\r' :: '\n' :: rest => push '\n' (readMultilineBasic .plain rest)
  | .hidden, '\r' :: '\n' :: rest | .hiding, '\r' :: '\n' :: rest
  | .escaped, '\r' :: '\n' :: rest => readMultilineBasic .hidden rest
  | .plain, c :: rest =>
    if c = '\\' then readMultilineBasic .escaped rest
    else if c = '\n' ∨ isPlain c then push c (readMultilineBasic .plain rest)
    else none
  | .hidden, c :: rest =>
    if c = '\n' ∨ isBlank c then readMultilineBasic .hidden rest
    else if c = '\\' then readMultilineBasic .escaped rest
    else if isPlain c then push c (readMultilineBasic .plain rest)
    else none
  | .hiding, c :: rest =>
    if c = '\n' then readMultilineBasic .hidden rest
    else if isBlank c then readMultilineBasic .hiding rest
    else none
  | .escaped, c :: rest =>
    if c = '\n' then readMultilineBasic .hidden rest
    else if isBlank c then readMultilineBasic .hiding rest
    else if c = 'u' then readMultilineBasic (.hex 3 0) rest
    else if c = 'U' then readMultilineBasic (.hex 7 0) rest
    else
      match simpleEscape? c with
      | some d => push d (readMultilineBasic .plain rest)
      | none => none
  | .hex left value, c :: rest =>
    match hexDigit? c with
    | none => none
    | some d =>
      match left with
      | 0 =>
        match scalar? (value * 16 + d) with
        | some e => push e (readMultilineBasic .plain rest)
        | none => none
      | left + 1 => readMultilineBasic (.hex left (value * 16 + d)) rest
  | _, [] => none

/-- Reads a multi-line literal string. -/
def readMultilineLiteral : Text → Option (Text × Text)
  | '\'' :: '\'' :: '\'' :: rest => some (closeMultiline '\'' rest)
  | '\r' :: '\n' :: rest => push '\n' (readMultilineLiteral rest)
  | c :: rest => if c = '\n' ∨ isPlain c then push c (readMultilineLiteral rest) else none
  | [] => none

/-- Drops a line end right behind the opening quotes. -/
def dropFirstNewline (t : Text) : Text :=
  (newline? t).getD t

/-- Reads a string in any of the four forms, from its first quote on. -/
def readString : Text → Option (Text × Text)
  | '"' :: '"' :: '"' :: rest => readMultilineBasic .plain (dropFirstNewline rest)
  | '\'' :: '\'' :: '\'' :: rest => readMultilineLiteral (dropFirstNewline rest)
  | '"' :: rest => readBasic .plain rest
  | '\'' :: rest => readLiteral rest
  | _ => none

end KernelTools.Toml

import KernelTools.Toml.Quoted
import KernelTools.Toml.Scalar
import KernelTools.Toml.Table

/-!
# Statements of a document

A document is a sequence of statements, each on lines of its own: a header that opens a table, a
header that opens one more table of an array, or a value under a key.

Arrays and tables between braces may nest up to {lit}`nestingLimit` deep.
-/

namespace KernelTools.Toml

/-! ## Keys -/

/-- A character of a key without quotes. -/
def isKeyChar (c : Char) : Bool :=
  c.isAlphanum || c == '_' || c == '-'

/-- Reads one part of a key. -/
def readKey : Text → Option (Text × Text)
  | '"' :: rest => readBasic .plain rest
  | '\'' :: rest => readLiteral rest
  | t =>
    let key := t.takeWhile isKeyChar
    if key = [] then none else some (key, t.dropWhile isKeyChar)

/-- A key with the parts behind its first dot. -/
abbrev DottedKey := Text × List Text

/-- The parts of a dotted key, in order. -/
def DottedKey.parts (key : DottedKey) : List Text :=
  key.1 :: key.2

/-- Reads a dotted key with the blanks around its parts. -/
def readDottedKey (t : Text) : Option (DottedKey × Text) :=
  match readKey (skipBlanks t) with
  | none => none
  | some (key, rest) =>
    match skipBlanks rest with
    | '.' :: more =>
      if _h : more.length < t.length then
        (readDottedKey more).map fun (next, rest) => ((key, next.parts), rest)
      else none
    | rest => some ((key, []), rest)
termination_by t.length

/-! ## Values -/

/-- Reads what nests in arrays and tables. -/
abbrev ValueReader := Text → Option (Value × Text)

/-- Reads the items of an array behind its opening bracket or a comma. -/
def readItems (readItem : ValueReader) (t : Text) : Option (List Value × Text) :=
  match skipGap false t with
  | none => none
  | some (']' :: rest) => some ([], rest)
  | some t₁ =>
    match readItem t₁ with
    | none => none
    | some (item, t₂) =>
      match skipGap false t₂ with
      | some (']' :: rest) => some ([item], rest)
      | some (',' :: more) =>
        if _h : more.length < t.length then
          (readItems readItem more).map fun (items, rest) => (item :: items, rest)
        else none
      | _ => none
termination_by t.length

/-- Reads a key with its value. -/
def readPair (readValue : ValueReader) (t : Text) : Option ((DottedKey × Value) × Text) :=
  match readDottedKey t with
  | some (key, '=' :: rest) =>
    (readValue (skipBlanks rest)).map fun (value, rest) => ((key, value), rest)
  | _ => none

/-- Reads the pairs of a table between braces, behind its opening brace or a comma. -/
def readPairs (readValue : ValueReader) (t : Text) : Option (List (DottedKey × Value) × Text) :=
  match readPair readValue t with
  | none => none
  | some (pair, rest) =>
    match skipBlanks rest with
    | '\x7d' :: rest => some ([pair], rest)
    | ',' :: more =>
      if _h : more.length < t.length then
        (readPairs readValue more).map fun (pairs, rest) => (pair :: pairs, rest)
      else none
    | _ => none
termination_by t.length

/-- The table that pairs make, if no key is given twice. -/
def tableOfPairs (pairs : List (DottedKey × Value)) : Option Table :=
  pairs.foldlM (fun (t : Table) ((key, value) : DottedKey × Value) =>
    t.addDotted key.1 value key.2) []

/-- Reads a table behind its opening brace. -/
def readBraces (readValue : ValueReader) (t : Text) : Option (Value × Text) :=
  match skipBlanks t with
  | '\x7d' :: rest => some (.table .braces [], rest)
  | _ =>
    match readPairs readValue t with
    | none => none
    | some (pairs, rest) => (tableOfPairs pairs).map fun table => (.table .braces table, rest)

/-- Reads a value in which arrays and tables nest so many levels deep at most. -/
def readValue : (depth : Nat) → ValueReader
  | _, '"' :: rest => (readString ('"' :: rest)).map fun (s, rest) => (.string s, rest)
  | _, '\'' :: rest => (readString ('\'' :: rest)).map fun (s, rest) => (.string s, rest)
  | depth + 1, '[' :: rest =>
    (readItems (readValue depth) rest).map fun (items, rest) => (.array items, rest)
  | depth + 1, '\x7b' :: rest => readBraces (readValue depth) rest
  | _, t => readWord t

/-- How deep arrays and tables between braces nest at most. -/
def nestingLimit : Nat := 127

/-! ## Statements -/

/-- A statement of a document. -/
inductive Statement
  /-- Opens a table. -/
  | header (key : DottedKey)
  /-- Opens one more table of an array. -/
  | nextHeader (key : DottedKey)
  /-- Gives a value to a key. -/
  | pair (key : DottedKey) (value : Value)

/-- Reads a statement without the end of its line. -/
def readStatement : Text → Option (Statement × Text)
  | '[' :: '[' :: t =>
    match readDottedKey t with
    | some (key, ']' :: ']' :: rest) => some (.nextHeader key, rest)
    | _ => none
  | '[' :: t =>
    match readDottedKey t with
    | some (key, ']' :: rest) => some (.header key, rest)
    | _ => none
  | t => (readPair (readValue nestingLimit) t).map fun (pair, rest) => (.pair pair.1 pair.2, rest)

/-- Reads the statements of a document; lines may also be empty or hold a comment alone. -/
def readStatements (t : Text) : Option (List Statement) :=
  match skipBlanks t with
  | [] => some []
  | c :: rest =>
    if c = '\n' ∨ c = '\r' ∨ c = '#' then
      match endOfLine? (c :: rest) with
      | none => none
      | some more => if _h : more.length < t.length then readStatements more else none
    else
      match readStatement (c :: rest) with
      | none => none
      | some (statement, behind) =>
        match endOfLine? behind with
        | none => none
        | some more =>
          if _h : more.length < t.length then
            (readStatements more).map (statement :: ·)
          else none
termination_by t.length

end KernelTools.Toml

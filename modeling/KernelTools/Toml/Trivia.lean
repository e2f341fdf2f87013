import KernelTools.Text

/-!
# Blanks, comments and line ends

What separates the parts of a TOML document.  Blanks are spaces and tabs; a line ends in a line
feed, with or without a carriage return before it; a comment runs from a number sign to the end of
its line and holds no control character but tabs.

Reading functions return what is left of the text, or {lean}`none` when the text is refused.
-/

namespace KernelTools.Toml

/-! ## Characters -/

/-- A space or a tab. -/
def isBlank (c : Char) : Bool :=
  c == ' ' || c == '\t'

/-- A tab or any character that is no control character of ASCII. -/
def isPlain (c : Char) : Bool :=
  c == '\t' || (decide (0x20 ≤ c.toNat) && c != '\x7f')

/-! ## Skipping -/

/-- Drops blanks. -/
def skipBlanks (t : Text) : Text :=
  t.dropWhile isBlank

/-- Drops a comment, if one starts here. -/
def skipComment : Text → Text
  | '#' :: rest => rest.dropWhile isPlain
  | t => t

/-- Takes a line end. -/
def newline? : Text → Option Text
  | '\n' :: rest => some rest
  | '\r' :: '\n' :: rest => some rest
  | _ => none

/-- Takes the rest of a line that holds nothing more: blanks, a comment, and the line end or the end
of the text. -/
def endOfLine? (t : Text) : Option Text :=
  match skipComment (skipBlanks t) with
  | [] => some []
  | t => newline? t

/-- Drops blanks, line ends and comments, as arrays have them between their items. -/
def skipGap (inComment : Bool) : Text → Option Text
  | [] => some []
  | '\r' :: '\n' :: rest => skipGap false rest
  | c :: rest =>
    if c = '\n' then skipGap false rest
    else if inComment then if isPlain c then skipGap true rest else none
    else if isBlank c then skipGap false rest
    else if c = '#' then skipGap true rest
    else some (c :: rest)

end KernelTools.Toml

import KernelTools.Text.Invisible

/-!
# Quoted text

A text is shown between double quotes.  Quotes and backslashes follow a backslash, the common
control characters and NUL have short escapes, and every other character that could not be seen is
written by its code point.
-/

namespace KernelTools.Text

/-- How a character is written between quotes. -/
def quotedChar (c : Char) : Text :=
  if c = '\x00' then "\\0".toList
  else if c = '\t' then "\\t".toList
  else if c = '\r' then "\\r".toList
  else if c = '\n' then "\\n".toList
  else if c = '\\' then "\\\\".toList
  else if c = '"' then "\\\"".toList
  else if isInvisible c then "\\u\x7b".toList ++ Nat.toDigits 16 c.toNat ++ "\x7d".toList
  else [c]

/-- A text between double quotes. -/
def quoted (t : Text) : Text :=
  '"' :: t.flatMap quotedChar ++ ['"']

end KernelTools.Text

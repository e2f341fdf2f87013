/-!
# Text and octets

Everything the tools read or print is text: a list of Unicode scalar values.  Files hold octets, and
text reaches a file in its UTF-8 form.  This module fixes both representations, the decimal
numerals in which counts are printed, and the cutting of text into lines.

Main results:

- Theorem {lit}`Text.ofUtf8?_utf8`: reading the UTF-8 form of a text gives the text back.
- Theorem {lit}`Text.utf8_append`: the UTF-8 form of a concatenation is the concatenation of the
  forms.
-/

namespace KernelTools

/-- A text is a list of Unicode scalar values. -/
abbrev Text := List Char

/-- The contents of a file: a list of octets. -/
abbrev Bytes := List UInt8

namespace Text

/-! ## UTF-8 -/

/-- The UTF-8 form of a text. -/
def utf8 (t : Text) : Bytes :=
  t.flatMap String.utf8EncodeChar

/-- The text whose UTF-8 form the octets are; {lean}`none` when they are no such form. -/
def ofUtf8? (b : Bytes) : Option Text :=
  b.toByteArray.utf8Decode?.map Array.toList

/-- Number of octets in the UTF-8 form of a text. -/
def octets (t : Text) : Nat :=
  t.utf8.length

@[simp]
theorem utf8_nil : utf8 [] = [] :=
  rfl

@[simp]
theorem utf8_append (s t : Text) : utf8 (s ++ t) = utf8 s ++ utf8 t := by
  simp [utf8]

@[simp]
theorem octets_nil : octets [] = 0 :=
  rfl

@[simp]
theorem octets_append (s t : Text) : octets (s ++ t) = octets s + octets t := by
  simp [octets]

/-- Every scalar value takes at least one octet. -/
theorem octets_cons_pos (c : Char) (t : Text) : 0 < octets (c :: t) := by
  have h : 0 < (String.utf8EncodeChar c).length := by
    rw [String.length_utf8EncodeChar]
    exact c.utf8Size_pos
  simp only [octets, utf8, List.flatMap_cons, List.length_append]
  omega

/-- Reading the UTF-8 form of a text gives the text back. -/
@[simp]
theorem ofUtf8?_utf8 (t : Text) : ofUtf8? (utf8 t) = some t := by
  have h : (utf8 t).toByteArray = List.utf8Encode t := rfl
  rw [ofUtf8?, h, List.utf8Decode?_utf8Encode]
  rfl

/-! ## Decimal numerals -/

/-- The decimal numeral of a number, without leading zeros. -/
def decimal (n : Nat) : Text :=
  Nat.toDigits 10 n

/-- The number that a decimal digit stands for. -/
def digitValue (c : Char) : Nat :=
  c.toNat - '0'.toNat

/-- The number that a run of decimal digits stands for; the empty run stands for zero. -/
def ofDigits (digits : Text) : Nat :=
  digits.foldl (fun n d => n * 10 + digitValue d) 0

/-! ## Lines -/

/-- Texts one after the other, each closed by a newline. -/
def ofLines (lines : List Text) : Text :=
  lines.flatMap (· ++ ['\n'])

end Text

end KernelTools

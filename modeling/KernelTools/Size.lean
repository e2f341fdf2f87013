import KernelTools.Text
import KernelTools.Log

/-!
# Byte counts

A size is written as a decimal number, an optional binary suffix and any further text:
{lit}`512`, {lit}`64k`, {lit}`1.44M`, {lit}`4G`, {lit}`512MB`.  Only the longest head of digits and
points and the one character after it matter.

The value is exact.  The fraction is folded from its last digit: each step takes the carry of the
less significant digits, adds {lit}`digit * unit` and divides by ten, and since flooring an integer
plus a proper fraction loses only the fraction, no rounding accumulates.
-/

namespace KernelTools.Size

/-! ## Units -/

/-- Bytes in a kibibyte. -/
def kibibyte : Nat := 0x400

/-- Bytes in a mebibyte. -/
def mebibyte : Nat := kibibyte * kibibyte

/-- Bytes in a gibibyte. -/
def gibibyte : Nat := mebibyte * kibibyte

/-- The unit that a suffix character chooses, in either case; any other character chooses bytes. -/
def unitOf (c : Char) : Nat :=
  if c = 'k' ∨ c = 'K' then kibibyte
  else if c = 'm' ∨ c = 'M' then mebibyte
  else if c = 'g' ∨ c = 'G' then gibibyte
  else 1

/-! ## Errors -/

/-- Why a size has no byte count; each cause carries the whole size as it was written. -/
inductive Error
  /-- The size does not start with a digit or a point. -/
  | noNumber (size : Text)
  /-- The number has a second point, or no digit. -/
  | malformed (size : Text)
  /-- The byte count needs more than 64 bits. -/
  | overflow (size : Text)
deriving DecidableEq

/-- The wording of an error. -/
def Error.message : Error → Text
  | .noNumber size =>
    "invalid size `".toList ++ size ++ "`: expected a number with an optional k/m/g suffix".toList
  | .malformed size => "invalid size `".toList ++ size ++ "`: malformed number".toList
  | .overflow size => "size `".toList ++ size ++ "` does not fit in 64 bits".toList

/-! ## The parts of a size -/

/-- A decimal digit or a point. -/
def isNumeral (c : Char) : Bool :=
  c.isDigit || c == '.'

/-- The number at the head of a size: its longest head of digits and points. -/
def number (size : Text) : Text :=
  size.takeWhile isNumeral

/-- The unit of a size, chosen by the first character after its number. -/
def unit (size : Text) : Nat :=
  match size.dropWhile isNumeral with
  | [] => 1
  | c :: _ => unitOf c

/-- The digits before the point. -/
def wholePart (number : Text) : Text :=
  number.takeWhile (· != '.')

/-- Everything after the first point. -/
def fractionPart (number : Text) : Text :=
  (number.dropWhile (· != '.')).tail

/-- Bytes in {lit}`0.d1...dn` units, rounded down. -/
def fractionBytes (unit : Nat) (digits : Text) : Nat :=
  digits.foldr (fun d carry => (Text.digitValue d * unit + carry) / 10) 0

/-! ## Reading a size -/

/-- Largest byte count plus one: counts are kept in 64 bits. -/
def countLimit : Nat := Nat.pow 2 64

/-- Largest intermediate count plus one: counts are computed in 128 bits. -/
def wideLimit : Nat := Nat.pow 2 128

/-- A count, provided that it is below a limit. -/
def checked (size : Text) (limit count : Nat) : Except Error Nat :=
  if count < limit then .ok count else .error (.overflow size)

/-- The byte count of a size as computed, before it is narrowed to 64 bits.  The whole part, its
product with the unit and the sum with the bytes of the fraction are each checked to fit. -/
def wideCount (size : Text) : Except Error Nat :=
  let number := number size
  let whole := wholePart number
  let fraction := fractionPart number
  if number = [] then .error (.noNumber size)
  else if '.' ∈ fraction ∨ (whole = [] ∧ fraction = []) then .error (.malformed size)
  else do
    let units ← checked size wideLimit (Text.ofDigits whole)
    let wholeBytes ← checked size wideLimit (units * unit size)
    checked size wideLimit (wholeBytes + fractionBytes (unit size) fraction)

/-- The byte count of a size, rounded down to a whole number of bytes. -/
def parse (size : Text) : Except Error Nat := do
  let bytes ← wideCount size
  checked size countLimit bytes

/-- What reading a size logs: the computed count, also when it is then found too large. -/
def records (size : Text) : List Log.Record :=
  match wideCount size with
  | .error _ => []
  | .ok bytes =>
    [⟨.trace, "buildutil::size".toList,
      "parsed size `".toList ++ size ++ "` as ".toList ++ Text.decimal bytes ++ " bytes".toList⟩]

end KernelTools.Size

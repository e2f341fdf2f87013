import KernelTools.Toml.Trivia
import KernelTools.Toml.Value

/-!
# Numbers, truth values and dates

TOML writes these without quotes.  Such a word is taken whole and must then have exactly one of
the forms below.

- Integers are decimal, with a sign and without leading zeros, or hexadecimal, octal or binary
  behind a prefix; they fit in 64 bits.
- Floats have a fraction, an exponent or both, or are {lit}`inf` or {lit}`nan`; a positive float
  that rounds to infinity is refused.
- Single underscores may stand between digits.
- Dates exist in the calendar; a minute may have a leap second.
-/

namespace KernelTools.Toml

/-! ## Digits -/

/-- The digits of a run in which single underscores may separate digits. -/
def ungroup (isDigit : Char → Bool) (afterDigit : Bool) : Text → Option Text
  | [] => if afterDigit then some [] else none
  | c :: rest =>
    if isDigit c then (ungroup isDigit true rest).map (c :: ·)
    else if c = '_' ∧ afterDigit then ungroup isDigit false rest
    else none

/-- The digits of a run that has no leading zero, unless it is a single digit. -/
def ungroupNumber (t : Text) : Option Text :=
  match ungroup Char.isDigit false t with
  | some ('0' :: _ :: _) => none
  | digits => digits

/-- The sign of a number, and what stands behind it. -/
def splitSign : Text → Bool × Text
  | '-' :: rest => (true, rest)
  | '+' :: rest => (false, rest)
  | t => (false, t)

/-- The number that digits stand for in a base. -/
def ofBase (base : Nat) (digits : Text) : Nat :=
  digits.foldl (fun n c => n * base + c.toLower.toNat - if c.isDigit then 48 else 87) 0

/-! ## Integers -/

/-- One more than the largest integer. -/
def integerLimit : Nat := Nat.pow 2 63

/-- The integer that digits in a base stand for, if it fits. -/
def integerInBase? (base : Nat) (isDigit : Char → Bool) (t : Text) : Option Value :=
  match ungroup isDigit false t with
  | none => none
  | some digits =>
    let n := ofBase base digits
    if n < integerLimit then some (.integer n) else none

/-- A hexadecimal digit. -/
def isHexDigit (c : Char) : Bool :=
  c.isDigit || (decide ('a' ≤ c.toLower) && decide (c.toLower ≤ 'f'))

/-- The integer that a word spells. -/
def integer? : Text → Option Value
  | '0' :: 'x' :: rest => integerInBase? 16 isHexDigit rest
  | '0' :: 'o' :: rest => integerInBase? 8 (fun c => decide ('0' ≤ c) && decide (c ≤ '7')) rest
  | '0' :: 'b' :: rest => integerInBase? 2 (fun c => c == '0' || c == '1') rest
  | word =>
    let (negative, rest) := splitSign word
    match ungroupNumber rest with
    | none => none
    | some digits =>
      let n := Text.ofDigits digits
      if negative then if n ≤ integerLimit then some (.integer (-n)) else none
      else if n < integerLimit then some (.integer n)
      else none

/-! ## Floats -/

/-- Whether a mark starts the exponent of a float. -/
def isExponentMark (c : Char) : Bool :=
  c == 'e' || c == 'E'

/-- Whether {lit}`digits * 10 ^ exponent` rounds to infinity among the 64-bit floats, the largest of
which is {lit}`2 ^ 1024 - 2 ^ 971`. -/
def roundsToInfinity (digits : Text) (exponent : Int) : Bool :=
  let mantissa := Text.ofDigits digits
  let magnitude := (Text.decimal mantissa).length + exponent
  let least := Nat.pow 2 1024 - Nat.pow 2 970
  if mantissa = 0 ∨ magnitude < 300 then false
  else if 320 < magnitude then true
  else decide (least * Nat.pow 10 (-exponent).toNat ≤ mantissa * Nat.pow 10 exponent.toNat)

/-- The exponent that stands behind a mark. -/
def exponent? (t : Text) : Option Int :=
  let (negative, rest) := splitSign t
  (ungroup Char.isDigit false rest).map fun digits =>
    if negative then -(Text.ofDigits digits : Int) else Text.ofDigits digits

/-- The digits and the exponent of a float without its sign. -/
def floatParts? (t : Text) : Option (Text × Int) :=
  let whole := t.takeWhile fun c => c != '.' && !isExponentMark c
  match ungroupNumber whole, t.drop whole.length with
  | some digits, '.' :: rest =>
    let fraction := rest.takeWhile (!isExponentMark ·)
    match ungroup Char.isDigit false fraction, rest.drop fraction.length with
    | some places, [] => some (digits ++ places, -places.length)
    | some places, _ :: exponent =>
      (exponent? exponent).map fun e => (digits ++ places, e - places.length)
    | none, _ => none
  | some digits, _ :: exponent => (exponent? exponent).map fun e => (digits, e)
  | _, _ => none

/-- The float that a word spells. -/
def float? (word : Text) : Option Value :=
  let (negative, rest) := splitSign word
  if rest = "inf".toList ∨ rest = "nan".toList then some (.float word)
  else
    match floatParts? rest with
    | none => none
    | some (digits, exponent) =>
      if !negative && roundsToInfinity digits exponent then none else some (.float word)

/-! ## Dates and times -/

/-- Takes a two-digit number of at most a bound. -/
def twoDigits? (bound : Nat) : Text → Option (Nat × Text)
  | a :: b :: rest =>
    let n := Text.ofDigits [a, b]
    if a.isDigit ∧ b.isDigit ∧ n ≤ bound then some (n, rest) else none
  | _ => none

/-- Takes one certain character. -/
def literally? (c : Char) : Text → Option Text
  | d :: rest => if d = c then some rest else none
  | [] => none

/-- Whether a year has a leap day. -/
def isLeapYear (year : Nat) : Bool :=
  year % 4 == 0 && (year % 100 != 0 || year % 400 == 0)

/-- Days of a month. -/
def daysIn (year month : Nat) : Nat :=
  if month = 2 then if isLeapYear year then 29 else 28
  else if month = 4 ∨ month = 6 ∨ month = 9 ∨ month = 11 then 30
  else 31

/-- Takes a calendar date. -/
def date? (t : Text) : Option Text := do
  let (century, t) ← twoDigits? 99 t
  let (year, t) ← twoDigits? 99 t
  let t ← literally? '-' t
  let (month, t) ← twoDigits? 12 t
  let t ← literally? '-' t
  let (day, t) ← twoDigits? (daysIn (century * 100 + year) month) t
  if 1 ≤ month ∧ 1 ≤ day then some t else none

/-- Takes the fraction of a second, if there is one. -/
def secondFraction? : Text → Option Text
  | '.' :: rest =>
    if (rest.takeWhile Char.isDigit).isEmpty then none else some (rest.dropWhile Char.isDigit)
  | t => some t

/-- Takes a time of day. -/
def time? (t : Text) : Option Text := do
  let (_, t) ← twoDigits? 23 t
  let t ← literally? ':' t
  let (_, t) ← twoDigits? 59 t
  let t ← literally? ':' t
  let (_, t) ← twoDigits? 60 t
  secondFraction? t

/-- Takes an offset from universal time. -/
def offset? : Text → Option Text
  | c :: rest =>
    if c = 'Z' ∨ c = 'z' then some rest
    else if c = '+' ∨ c = '-' then do
      let (_, t) ← twoDigits? 23 rest
      let t ← literally? ':' t
      let (_, t) ← twoDigits? 59 t
      some t
    else none
  | [] => none

/-- Whether a word is a time of day, with an offset or without. -/
def isClock (word : Text) : Bool :=
  match time? word with
  | some [] => true
  | some rest => offset? rest == some []
  | none => false

/-- Whether a word is a date, a time of day, or both around a {lit}`T`. -/
def isDateTime (word : Text) : Bool :=
  match date? word with
  | some [] => true
  | some (mark :: clock) => (mark == 'T' || mark == 't') && isClock clock
  | none => time? word == some []

/-! ## Words -/

/-- A character of a word. -/
def isWordChar (c : Char) : Bool :=
  c.isAlphanum || c == '+' || c == '-' || c == '_' || c == '.' || c == ':'

/-- The value that a word spells. -/
def word? (word : Text) : Option Value :=
  if word = "true".toList then some (.boolean true)
  else if word = "false".toList then some (.boolean false)
  else if isDateTime word then some (.dateTime word)
  else (integer? word).or (float? word)

/-- Reads a value written without quotes; between a date and a time of day a space may stand. -/
def readWord (t : Text) : Option (Value × Text) :=
  let word := t.takeWhile isWordChar
  let rest := t.dropWhile isWordChar
  match date? word, rest with
  | some [], ' ' :: behind =>
    let clock := behind.takeWhile isWordChar
    if isClock clock then
      some (.dateTime (word ++ ' ' :: clock), behind.dropWhile isWordChar)
    else some (.dateTime word, rest)
  | _, _ => (word? word).map fun value => (value, rest)

end KernelTools.Toml

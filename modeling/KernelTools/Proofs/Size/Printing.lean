import KernelTools.Proofs.Size.Reading

/-!
# Counts as they are printed

A count is printed as a decimal numeral on a line of its own.  A numeral has no newline in it, so the
lines can be told apart again, and it is a size itself: a number without a suffix, which stands for
itself as long as it fits in 64 bits.  Every count that is read does.

Main results:

- Theorem {lit}`Text.lines_ofLines`: a text is cut into the lines that it was made of.
- Theorem {lit}`Text.ofDigits_decimal`: a numeral stands for its number.
- Theorem {lit}`Size.parse_decimal_of_parse`: a count that was read and printed is read as itself.
-/

namespace KernelTools

namespace Text

/-! ## Lines -/

/-- The lines of a text in which every line is closed by a newline. -/
def lines (t : Text) : List Text :=
  (t.splitOn '\n').dropLast

/-- The first newline of a text closes its first line. -/
theorem lines_append_newline {line : Text} (hline : '\n' ∉ line) (rest : Text) :
    lines (line ++ '\n' :: rest) = line :: lines rest := by
  have hfirst : line.splitOn '\n' = [line] := List.splitOn_eq_singleton hline
  have hsplit : (line ++ '\n' :: rest).splitOn '\n' = line :: rest.splitOn '\n' := by
    rw [List.splitOn_eq_splitOnP] at hfirst ⊢
    rw [@List.splitOnP_append_cons _ (· == '\n') line rest '\n' rfl, hfirst]
    rfl
  rw [lines, hsplit]
  exact List.dropLast_cons_of_ne_nil (List.splitOn_ne_nil '\n' rest)

/-- A text that is made of lines is cut into these lines. -/
theorem lines_ofLines {parts : List Text} (hparts : ∀ line ∈ parts, '\n' ∉ line) :
    lines (ofLines parts) = parts := by
  induction parts with
  | nil => rfl
  | cons line parts ih =>
    rw [List.forall_mem_cons] at hparts
    have hcut : ofLines (line :: parts) = line ++ '\n' :: ofLines parts := by simp [ofLines]
    rw [hcut, lines_append_newline hparts.1, ih hparts.2]

/-! ## Numerals -/

theorem isDigit_of_mem_decimal {n : Nat} {c : Char} (hc : c ∈ decimal n) : c.isDigit = true :=
  Nat.isDigit_of_mem_toDigits (by decide) (by decide) hc

theorem decimal_ne_nil (n : Nat) : decimal n ≠ [] :=
  Nat.toDigits_ne_nil

/-- A numeral stands for its number. -/
theorem ofDigits_decimal (n : Nat) : ofDigits (decimal n) = n := by
  have hfold : ∀ digits : Text, Nat.ofDigitChars 10 digits 0 = ofDigits digits := by
    intro digits
    simp only [Nat.ofDigitChars_eq_foldl, ofDigits, digitValue, Nat.mul_comm]
  rw [← hfold]
  exact Nat.ofDigitChars_ten_toDigits

theorem newline_not_mem_decimal (n : Nat) : '\n' ∉ decimal n := by
  intro hmem
  exact absurd (isDigit_of_mem_decimal hmem) (by decide)

end Text

namespace Size

variable {size : Text} {n : Nat}

/-! ## Reading a count back -/

/-- A count that is read fits in 64 bits. -/
theorem lt_of_parse (h : parse size = .ok n) : n < 2 ^ 64 := by
  rcases exists_reads size with ⟨r, hr⟩
  rw [parse_of_reads hr] at h
  subst h
  cases hr with
  | count _ _ hlt => exact hlt

/-- A numeral is read as its number, in bytes, if that fits in 64 bits. -/
theorem parse_decimal (hn : n < 2 ^ 64) : parse (Text.decimal n) = .ok n := by
  have hheads : Heads (Text.decimal n) (Text.decimal n) [] :=
    ⟨(List.append_nil _).symm, fun c hc => .inl (Text.isDigit_of_mem_decimal hc), by simp⟩
  have hdenotes : Denotes (Text.decimal n) n := by
    have h := Denotes.whole (fun c hc => Text.isDigit_of_mem_decimal hc) (Text.decimal_ne_nil n)
    rwa [Text.ofDigits_decimal] at h
  have hfloor : ⌊(n : ℚ) * multiplier ([] : Text).head?⌋₊ = n := by
    simp [multiplier]
  have hreads := Reads.count hheads hdenotes (by rwa [hfloor])
  rw [hfloor] at hreads
  exact parse_of_reads hreads

/-- A count that was read and printed is read as itself. -/
theorem parse_decimal_of_parse (h : parse size = .ok n) : parse (Text.decimal n) = .ok n :=
  parse_decimal (lt_of_parse h)

end Size

end KernelTools
